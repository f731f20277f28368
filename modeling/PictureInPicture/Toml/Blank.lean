-- What stands between the values of a document: blanks, comments and the ends of lines.
-- Every reader takes the characters that are left, and gives those that are left after it.

namespace PictureInPicture.Toml

/-- The characters of a document. A carriage return before a line feed is part of the line
end, and a byte order mark in front is no part of the text. -/
def characters (text : String) : List Char :=
  let rec ends : List Char → List Char
    | '\r' :: '\n' :: cs => '\n' :: ends cs
    | c :: cs => c :: ends cs
    | [] => []
  match ends text.toList with
  | '\uFEFF' :: cs => cs
  | cs => cs

/-- A blank that does not end the line. -/
def isBlank (c : Char) : Bool := c = ' ' || c = '\t'

/-- A character that may stand in a comment and in a quoted text as it is. -/
def isPlain (c : Char) : Bool := c = '\t' || (' ' ≤ c && c ≠ '\x7f')

def skipBlanks (cs : List Char) : List Char := cs.dropWhile isBlank

/-- Drops a comment, if there is one, up to the end of its line. -/
def skipComment : List Char → List Char
  | '#' :: cs => cs.dropWhile isPlain
  | cs => cs

/-- Reads what may follow a value on its line, with the line end. -/
def lineEnd? (cs : List Char) : Option (List Char) :=
  match skipComment (skipBlanks cs) with
  | [] => some []
  | '\n' :: cs => some cs
  | _ => none

/-- Drops blanks, comments and line ends. The flag says whether a comment is open. -/
def skipLinesFrom : Bool → List Char → List Char
  | _, [] => []
  | isComment, c :: cs =>
    if c = '\n' then skipLinesFrom false cs
    else if isComment then
      if isPlain c then skipLinesFrom true cs else c :: cs
    else if isBlank c then skipLinesFrom false cs
    else if c = '#' then skipLinesFrom true cs
    else c :: cs

/-- Drops blanks, comments and line ends. -/
def skipLines (cs : List Char) : List Char := skipLinesFrom false cs

end PictureInPicture.Toml
