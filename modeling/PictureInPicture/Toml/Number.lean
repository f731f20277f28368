-- Numbers: whole numbers in four bases, and decimal numbers in double precision.
import PictureInPicture.Toml.Text
import PictureInPicture.Toml.Value
import PictureInPicture.Decimal.Precision

namespace PictureInPicture.Toml

/-! ## Digits -/

/-- The digits in front, with single underscores between them left out, and what follows. -/
def digits (isDigit : Char → Bool) : List Char → List Char × List Char
  | '_' :: c :: cs =>
    if isDigit c then
      let (more, rest) := digits isDigit cs
      (c :: more, rest)
    else ([], '_' :: c :: cs)
  | c :: cs =>
    if isDigit c then
      let (more, rest) := digits isDigit cs
      (c :: more, rest)
    else ([], c :: cs)
  | [] => ([], [])

/-- Reads digits, of which there has to be one, and which no underscore begins. -/
def digits? (isDigit : Char → Bool) (cs : List Char) : Option (List Char × List Char) :=
  match cs with
  | c :: _ => if isDigit c then some (digits isDigit cs) else none
  | [] => none

/-- The number that digits of a base write. -/
def valueOf (base : Nat) (ds : List Char) : Nat :=
  ds.foldl (fun n c => base * n + (hexDigit? c).getD 0) 0

/-- Reads a sign. The flag says whether it is a minus. -/
def sign? : List Char → Option (Bool × List Char)
  | '+' :: cs => some (false, cs)
  | '-' :: cs => some (true, cs)
  | _ => none

/-- Reads the sign of a number, where none is a plus. -/
def sign (cs : List Char) : Bool × List Char := (sign? cs).getD (false, cs)

/-! ## Whole numbers -/

/-- A whole number, if 64 bits hold it. -/
def integer? (n : Int) : Option Value :=
  if -9223372036854775808 ≤ n && n ≤ 9223372036854775807 then some (.integer n) else none

/-- The base that a letter after a zero names, with its digits. -/
def radix? (c : Char) : Option (Nat × (Char → Bool)) :=
  if c = 'x' then some (16, fun d => (hexDigit? d).isSome)
  else if c = 'o' then some (8, fun d => '0' ≤ d && d ≤ '7')
  else if c = 'b' then some (2, fun d => d = '0' || d = '1')
  else none

/-! ## Decimal numbers -/

/-- The whole part of a decimal number has no zero in front of other digits. -/
def whole? (cs : List Char) : Option (List Char × List Char) :=
  match cs with
  | '0' :: cs => some (['0'], cs)
  | cs => digits? Char.isDigit cs

/-- Reads the digits after a point, if there is one. -/
def fraction? : List Char → Option (Option (List Char) × List Char)
  | '.' :: cs => (digits? Char.isDigit cs).map fun (ds, cs) => (some ds, cs)
  | cs => some (none, cs)

/-- Reads a power of ten, if there is one. -/
def exponent? : List Char → Option (Option Int × List Char)
  | c :: cs =>
    if c = 'e' || c = 'E' then
      let (negative, cs) := sign cs
      (digits? Char.isDigit cs).map fun (ds, cs) =>
        let n : Int := valueOf 10 ds
        (some (if negative then -n else n), cs)
    else some (none, c :: cs)
  | [] => some (none, [])

/-- The double precision number nearest to `mantissa * 10 ^ exponent`. Numbers far outside
the range are told from the count of digits alone. -/
def nearest (mantissa : Nat) (exponent : Int) : Float :=
  let magnitude : Int := (Nat.toDigits 10 mantissa).length + exponent
  if mantissa = 0 || magnitude < -400 then Decimal.double 0 0
  else if 400 < magnitude then Decimal.double 1 400
  else Decimal.double mantissa exponent

/-- A decimal number of double precision. A number that is too large is refused, and one
that is too far below zero is the infinity below all numbers. -/
def float? (negative : Bool) (ds fraction : List Char) (exponent : Int) : Option Value :=
  let x := nearest (valueOf 10 (ds ++ fraction)) (exponent - fraction.length)
  if negative then some (.float (-x)) else if x.isInf then none else some (.float x)

/-- Reads a decimal number. With a point or a power of ten it has double precision, and
without them it is a whole number. -/
def decimal? (cs : List Char) : Option (Value × List Char) := do
  let (negative, cs) := sign cs
  let (ds, cs) ← whole? cs
  let (fraction, cs) ← fraction? cs
  let (exponent, cs) ← exponent? cs
  let value ← match fraction, exponent with
    | none, none =>
      let n : Int := valueOf 10 ds
      integer? (if negative then -n else n)
    | _, _ => float? negative ds (fraction.getD []) (exponent.getD 0)
  some (value, cs)

/-- Reads a name of a number that no digits write. -/
def named? (cs : List Char) : Option (Value × List Char) :=
  let (negative, cs) := sign cs
  match cs with
  | 'i' :: 'n' :: 'f' :: cs =>
    some (.float (if negative then -Decimal.infinity else Decimal.infinity), cs)
  | 'n' :: 'a' :: 'n' :: cs => some (.float Decimal.notANumber, cs)
  | _ => none

/-- Reads a number. -/
def number? (cs : List Char) : Option (Value × List Char) :=
  let based : Option (Value × List Char) :=
    match cs with
    | '0' :: c :: cs => do
      let (base, isDigit) ← radix? c
      let (ds, cs) ← digits? isDigit cs
      let value ← integer? (valueOf base ds)
      some (value, cs)
    | _ => none
  based <|> named? cs <|> decimal? cs

end PictureInPicture.Toml
