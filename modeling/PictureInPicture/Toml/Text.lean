-- Quoted texts: with escapes between quotation marks, and as they stand between
-- apostrophes. Three marks open a text that may have many lines.
import PictureInPicture.Toml.Blank

namespace PictureInPicture.Toml

def quotationMark : Char := Char.ofNat 0x22

def apostrophe : Char := Char.ofNat 0x27

def backslash : Char := Char.ofNat 0x5c

/-- The value of a hexadecimal digit. -/
def hexDigit? (c : Char) : Option Nat :=
  if c.isDigit then some (c.toNat - '0'.toNat)
  else if 'a' ≤ c && c ≤ 'f' then some (c.toNat - 'a'.toNat + 10)
  else if 'A' ≤ c && c ≤ 'F' then some (c.toNat - 'A'.toNat + 10)
  else none

/-- How a text is quoted. -/
structure Quotation where
  /-- The character on both sides. -/
  mark : Char
  escapes : Bool
  /-- Three marks on both sides, and line ends inside. -/
  multiline : Bool
  deriving DecidableEq, Repr

namespace Quotation

/-- Where a reader stands inside a quoted text. -/
inductive Place where
  | plain
  /-- After some quotation marks in a row, in a text of many lines. -/
  | marks (count : Nat)
  /-- After a backslash. -/
  | escape
  /-- Inside a character number, with so many digits to come. -/
  | number (left value : Nat)
  /-- After a backslash and blanks, where the line has to end. -/
  | lineEnd
  /-- After a backslash at the end of a line. Blanks and line ends are left out here. -/
  | trim
  deriving DecidableEq, Repr

/-- The character that one letter after a backslash stands for. -/
def escaped? (c : Char) : Option Char :=
  if c = 'b' then some '\x08'
  else if c = 't' then some '\t'
  else if c = 'n' then some '\n'
  else if c = 'f' then some '\x0c'
  else if c = 'r' then some '\r'
  else if c = quotationMark || c = backslash then some c
  else none

/-- The character of a number, if it is one. -/
def scalar? (n : Nat) : Option Char := if n.isValidChar then some (Char.ofNat n) else none

/-- What a character adds to the text, and where it leads. A mark is not dealt with here. -/
def step (q : Quotation) : Place → Char → Option (List Char × Place)
  | .escape, c =>
    if q.multiline && isBlank c then some ([], .lineEnd)
    else if q.multiline && c = '\n' then some ([], .trim)
    else if c = 'u' then some ([], .number 4 0)
    else if c = 'U' then some ([], .number 8 0)
    else (escaped? c).map fun c => ([c], .plain)
  | .number left value, c => do
    let value := 16 * value + (← hexDigit? c)
    if left ≤ 1 then (scalar? value).map fun c => ([c], .plain)
    else some ([], .number (left - 1) value)
  | .lineEnd, c =>
    if isBlank c then some ([], .lineEnd) else if c = '\n' then some ([], .trim) else none
  | place, c =>
    if place = .trim && (isBlank c || c = '\n') then some ([], .trim)
    else if q.escapes && c = backslash then some ([], .escape)
    else if isPlain c || (q.multiline && c = '\n') then some ([c], .plain)
    else none

/-- A mark counts as one at these places, and is an escaped character at the others. -/
def Place.ends : Place → Bool
  | .plain | .marks _ | .trim => true
  | _ => false

/-- Reads up to the closing marks. The text so far comes last character first. Up to five
marks may stand at the end of a text of many lines, of which the last three close it. -/
def rest (q : Quotation) : Place → List Char → List Char → Option (String × List Char)
  | .marks n, text, [] =>
    if 3 ≤ n then some (String.ofList (List.replicate (n - 3) q.mark ++ text).reverse, [])
    else none
  | _, _, [] => none
  | place, text, c :: cs =>
    if c = q.mark && place.ends then
      if !q.multiline then some (String.ofList text.reverse, cs)
      else
        match place with
        | .marks n =>
          if n = 4 then
            some (String.ofList (List.replicate 2 q.mark ++ text).reverse, cs)
          else rest q (.marks (n + 1)) text cs
        | _ => rest q (.marks 1) text cs
    else
      match place with
      | .marks n =>
        if 3 ≤ n then
          some (String.ofList (List.replicate (n - 3) q.mark ++ text).reverse, c :: cs)
        else do
          let (more, place) ← q.step .plain c
          rest q place (more ++ List.replicate n q.mark ++ text) cs
      | place => do
        let (more, place) ← q.step place c
        rest q place (more ++ text) cs

end Quotation

/-- Reads a quoted text of one line. -/
def line? : List Char → Option (String × List Char)
  | c :: cs =>
    if c = quotationMark || c = apostrophe then
      Quotation.rest ⟨c, c = quotationMark, false⟩ .plain [] cs
    else none
  | [] => none

/-- Reads a quoted text of either kind. A line end right after three marks is left out. -/
def text? (cs : List Char) : Option (String × List Char) :=
  match cs with
  | a :: b :: c :: rest =>
    if (a = quotationMark || a = apostrophe) && b = a && c = a then
      let q : Quotation := ⟨a, a = quotationMark, true⟩
      match rest with
      | '\n' :: rest => q.rest .plain [] rest
      | rest => q.rest .plain [] rest
    else line? cs
  | _ => line? cs

end PictureInPicture.Toml
