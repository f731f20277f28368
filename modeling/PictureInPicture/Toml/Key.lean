-- Keys: bare words, quoted texts, and paths of keys joined by dots.
import PictureInPicture.Toml.Text

namespace PictureInPicture.Toml

/-- How deep the keys of a path, and the brackets of a value, may lie inside each other. -/
def depthLimit : Nat := 80

/-- A character of a bare key. -/
def isBare (c : Char) : Bool := c.isAlphanum || c = '-' || c = '_'

/-- Reads one key. -/
def key? (cs : List Char) : Option (String × List Char) :=
  match cs.takeWhile isBare with
  | [] => line? cs
  | name => some (String.ofList name, cs.dropWhile isBare)

/-- Reads keys joined by dots, at most `fuel` of them, with blanks around each. -/
def keysUpTo? : Nat → List Char → Option (List String × List Char)
  | 0, _ => none
  | fuel + 1, cs => do
    let (name, cs) ← key? (skipBlanks cs)
    match skipBlanks cs with
    | '.' :: cs => do
      let (names, cs) ← keysUpTo? fuel cs
      some (name :: names, cs)
    | cs => some ([name], cs)

/-- Reads a path of keys. -/
def path? (cs : List Char) : Option (List String × List Char) := keysUpTo? (depthLimit - 1) cs

end PictureInPicture.Toml
