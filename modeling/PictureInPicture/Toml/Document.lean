-- Whole documents: values, entries and headers. What is no document gives nothing.
import PictureInPicture.Toml.Key
import PictureInPicture.Toml.Number
import PictureInPicture.Toml.Moment
import PictureInPicture.Toml.Tree

namespace PictureInPicture.Toml

/-! ## Values -/

/-- Reads a value that holds no other values. -/
def scalar? (cs : List Char) : Option (Value × List Char) :=
  match cs with
  | 't' :: 'r' :: 'u' :: 'e' :: cs => some (.boolean true, cs)
  | 'f' :: 'a' :: 'l' :: 's' :: 'e' :: cs => some (.boolean false, cs)
  | cs => (text? cs).map (fun (s, cs) => (.text s, cs)) <|> moment? cs <|> number? cs

mutual

/-- Reads a value inside `depth` brackets. Each step into or along a list takes one of
`fuel`. -/
def valueAt? : Nat → Nat → List Char → Option (Value × List Char)
  | 0, _, _ => none
  | fuel + 1, depth, cs =>
    match cs with
    | '[' :: cs =>
      if depthLimit ≤ depth + 1 then none
      else (itemsAt? fuel (depth + 1) [] cs).map fun (items, cs) => (.array items, cs)
    | '\x7b' :: cs =>
      if depthLimit ≤ depth + 1 then none
      else
        match skipBlanks cs with
        | '\x7d' :: cs => some (.table [], cs)
        | cs => do
          let (t, cs) ← pairsAt? fuel (depth + 1) [] cs
          some (.table (valuesOf t), cs)
    | cs => scalar? cs

/-- Reads the items of a list, up to its closing bracket. The items so far come last item
first. -/
def itemsAt? : Nat → Nat → List Value → List Char → Option (List Value × List Char)
  | 0, _, _, _ => none
  | fuel + 1, depth, items, cs =>
    match skipLines cs with
    | ']' :: cs => some (items.reverse, cs)
    | cs => do
      let (v, cs) ← valueAt? fuel depth cs
      match skipLines cs with
      | ',' :: cs => itemsAt? fuel depth (v :: items) cs
      | ']' :: cs => some ((v :: items).reverse, cs)
      | _ => none

/-- Reads the entries of a table on one line, up to its closing brace. -/
def pairsAt? : Nat → Nat → Tree → List Char → Option (Tree × List Char)
  | 0, _, _, _ => none
  | fuel + 1, depth, t, cs => do
    let (keys, cs) ← path? cs
    match cs with
    | '=' :: cs => do
      let (v, cs) ← valueAt? fuel depth (skipBlanks cs)
      let t ← t.insert keys v
      match skipBlanks cs with
      | ',' :: cs => pairsAt? fuel depth t cs
      | '\x7d' :: cs => some (t, cs)
      | _ => none
    | _ => none

end

/-! ## Lines -/

/-- Reads a header and gives the path in it. A second bracket opens the next table of a
list. -/
def header? (cs : List Char) : Option ((Bool × List String) × List Char) :=
  match cs with
  | '[' :: '[' :: cs => do
    let (keys, cs) ← path? cs
    match cs with
    | ']' :: ']' :: cs => (lineEnd? cs).map fun cs => ((true, keys), cs)
    | _ => none
  | '[' :: cs => do
    let (keys, cs) ← path? cs
    match cs with
    | ']' :: cs => (lineEnd? cs).map fun cs => ((false, keys), cs)
    | _ => none
  | _ => none

/-- Reads an entry with its line end. Its value takes at most `fuel` steps. -/
def entry? (fuel : Nat) (cs : List Char) : Option ((List String × Value) × List Char) := do
  let (keys, cs) ← path? cs
  match cs with
  | '=' :: cs => do
    let (v, cs) ← valueAt? fuel 0 (skipBlanks cs)
    (lineEnd? cs).map fun cs => ((keys, v), cs)
  | _ => none

/-- Reads the lines of a document into the table of the last header. Each line takes one of
`fuel`, and its value takes no more than what is left then. -/
def linesUpTo? : Nat → List String → Tree → List Char → Option Tree
  | 0, _, _, _ => none
  | fuel + 1, header, t, cs =>
    match skipBlanks cs with
    | [] => some t
    | '\n' :: cs => linesUpTo? fuel header t cs
    | '#' :: cs => do linesUpTo? fuel header t (← lineEnd? ('#' :: cs))
    | '[' :: cs => do
      let ((isElement, keys), cs) ← header? ('[' :: cs)
      let t ← if isElement then t.openElement keys else t.openTable keys
      linesUpTo? fuel keys t cs
    | cs => do
      let ((keys, v), cs) ← entry? fuel cs
      let t ← t.insertUnder header keys v
      linesUpTo? fuel header t cs

/-- The table that a document writes. A line takes a character at least, and so does every
second step of a value. -/
def parse (text : String) : Option (List (String × Value)) :=
  let cs := characters text
  (linesUpTo? (2 * cs.length + 2) [] [] cs).map valuesOf

end PictureInPicture.Toml
