-- Dates and times. A document may hold them, and only their form is checked.
import PictureInPicture.Toml.Value

namespace PictureInPicture.Toml

/-- Reads a number of so many digits. -/
def count? : Nat → Nat → List Char → Option (Nat × List Char)
  | 0, n, cs => some (n, cs)
  | left + 1, n, c :: cs =>
    if c.isDigit then count? left (10 * n + (c.toNat - '0'.toNat)) cs else none
  | _ + 1, _, [] => none

/-- Reads two digits that write a number between two bounds. -/
def pair? (low high : Nat) (cs : List Char) : Option (Nat × List Char) :=
  (count? 2 0 cs).filter fun (n, _) => low ≤ n && n ≤ high

/-- Reads one character. -/
def exactly? (expected : Char) : List Char → Option (List Char)
  | c :: cs => if c = expected then some cs else none
  | [] => none

def isLeap (year : Nat) : Bool := year % 4 = 0 && (year % 100 ≠ 0 || year % 400 = 0)

def daysOf (year month : Nat) : Nat :=
  if month = 2 then (if isLeap year then 29 else 28)
  else if month = 4 || month = 6 || month = 9 || month = 11 then 30
  else 31

/-- Reads a date. -/
def date? (cs : List Char) : Option (List Char) := do
  let (year, cs) ← count? 4 0 cs
  let cs ← exactly? '-' cs
  let (month, cs) ← pair? 1 12 cs
  let cs ← exactly? '-' cs
  let (_, cs) ← pair? 1 (daysOf year month) cs
  some cs

/-- Reads hours and minutes. -/
def clock? (cs : List Char) : Option (List Char) := do
  let (_, cs) ← pair? 0 23 cs
  let cs ← exactly? ':' cs
  let (_, cs) ← pair? 0 59 cs
  some cs

/-- Reads a time of the day. A minute may have a leap second. -/
def time? (cs : List Char) : Option (List Char) := do
  let cs ← clock? cs
  let cs ← exactly? ':' cs
  let (_, cs) ← pair? 0 60 cs
  match cs with
  | '.' :: c :: cs => if c.isDigit then some (cs.dropWhile Char.isDigit) else none
  | cs => some cs

/-- Reads the distance to world time, if it is there. -/
def offset (cs : List Char) : List Char :=
  match cs with
  | 'Z' :: cs | 'z' :: cs => cs
  | '+' :: rest | '-' :: rest => (clock? rest).getD cs
  | cs => cs

/-- Reads a date, a time or both. -/
def moment? (cs : List Char) : Option (Value × List Char) :=
  let rest : Option (List Char) :=
    match date? cs with
    | some cs =>
      match cs with
      | c :: rest =>
        if c = 'T' || c = 't' || c = ' ' then
          match time? rest with
          | some cs => some (offset cs)
          | none => some (c :: rest)
        else some cs
      | [] => some []
    | none => time? cs
  rest.map fun cs => (.moment, cs)

end PictureInPicture.Toml
