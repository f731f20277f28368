-- The shortest decimal text of a single precision number: the fewest digits that read
-- back as the same number, never with an exponent.

namespace PictureInPicture.Decimal

/-! ## The search for the shortest decimal -/

/-- The numbers that round to one floating point number, as fractions over one
denominator. The two ends belong to the range when `closed` holds. -/
structure Range where
  low : Nat
  value : Nat
  high : Nat
  den : Nat
  closed : Bool

/-- The grid of the multiples of a power of ten, as `up / down`. -/
structure Grid where
  up : Nat
  down : Nat

/-- The grid of the multiples of `10 ^ (ceiling - step)`. -/
def Grid.at (ceiling step : Nat) : Grid :=
  if step ≤ ceiling then ⟨Nat.pow 10 (ceiling - step), 1⟩
  else ⟨1, Nat.pow 10 (step - ceiling)⟩

/-- The multiple `digits` of the grid rounds to the number. -/
def Range.holds (r : Range) (g : Grid) (digits : Nat) : Bool :=
  let point := digits * r.den * g.up
  if r.closed then r.low * g.down ≤ point && point ≤ r.high * g.down
  else r.low * g.down < point && point < r.high * g.down

/-- The multiple of the grid that rounds to the number and is nearest to it. Only the two
neighbours of the number can be it. Of two equally near ones the larger is taken. -/
def Range.nearest? (r : Range) (g : Grid) : Option Nat :=
  let below := r.value * g.down / (r.den * g.up)
  match r.holds g below, r.holds g (below + 1) with
  | false, false => none
  | true, false => some below
  | false, true => some (below + 1)
  | true, true =>
    let gap := r.value * g.down - below * (r.den * g.up)
    if 2 * gap < r.den * g.up then some below else some (below + 1)

/-- The digits on the coarsest grid that has a multiple in the range, with the step of
that grid. -/
def Range.shortest (r : Range) (ceiling : Nat) : (fuel step : Nat) → Nat × Nat
  | 0, step => (0, step)
  | fuel + 1, step =>
    match r.nearest? (Grid.at ceiling step) with
    | some digits => (digits, step)
    | none => r.shortest ceiling fuel (step + 1)

/-! ## The text -/

/-- The digits of `n` without the zeros at the end, with the number of zeros dropped.
No more than `limit` zeros are dropped. -/
def dropZeros : (limit n : Nat) → Nat × Nat
  | 0, n => (n, 0)
  | limit + 1, n =>
    if n % 10 = 0 then
      let (m, k) := dropZeros limit (n / 10)
      (m, k + 1)
    else (n, 0)

/-- The text of `digits / 10 ^ places`, with a point and no zeros at the end. -/
def fractionText (digits places : Nat) : String :=
  let (n, dropped) := dropZeros places digits
  let kept := places - dropped
  if kept = 0 then toString n
  else
    let text := toString n
    let padded := "".pushn '0' (kept + 1 - text.length) ++ text
    let wholeLength := padded.length - kept
    String.ofList (padded.toList.take wholeLength) ++ "." ++
      String.ofList (padded.toList.drop wholeLength)

/-- No single precision number reaches `10 ^ 39`. -/
def highestPower : Nat := 39

/-- A single precision number is a multiple of `2 ^ -149`, so it is on the grid of
`10 ^ -149`. -/
def lowestPower : Nat := 149

/-- The least mantissa of a number that is not among the smallest ones. -/
def leastMantissa : Nat := 8388608

/-- The text of the positive number `mantissa * 2 ^ (exponent - 149)`. The gap to the
number below is half as wide at a power of two, save for the least one. -/
def positiveText (mantissa exponent : Nat) : String :=
  let narrow := mantissa = leastMantissa && 0 < exponent
  let (num, den) :=
    if 151 ≤ exponent then (Nat.pow 2 (exponent - 151), 1) else (1, Nat.pow 2 (151 - exponent))
  let r : Range :=
    { low := (4 * mantissa - if narrow then 1 else 2) * num
      value := 4 * mantissa * num
      high := (4 * mantissa + 2) * num
      den
      closed := mantissa % 2 = 0 }
  let (digits, step) := r.shortest highestPower (highestPower + lowestPower + 1) 0
  if step ≤ highestPower then toString (digits * Nat.pow 10 (highestPower - step))
  else fractionText digits (step - highestPower)

/-- The text of the single precision number with these bits. -/
def textOfBits (bits : UInt32) : String :=
  let fraction := (bits &&& 0x7fffff).toNat
  let exponent := ((bits >>> 23) &&& 0xff).toNat
  let sign := if bits >>> 31 = 1 then "-" else ""
  if exponent = 255 then
    if fraction = 0 then sign ++ "inf" else "NaN"
  else if exponent = 0 then
    if fraction = 0 then sign ++ "0" else sign ++ positiveText fraction 0
  else sign ++ positiveText (leastMantissa + fraction) (exponent - 1)

/-- The fewest digits that read back as the same number. -/
def text (x : Float32) : String := textOfBits x.toBits

end PictureInPicture.Decimal
