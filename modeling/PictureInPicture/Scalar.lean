-- The numbers that the geometry is computed in. Every formula of the layout and of the
-- rasterizer is written over `Scalar`. It runs in single precision, and the same formula
-- is read over exact rationals where a law holds up to rounding only.

namespace PictureInPicture

/-- Numbers with the four operations, an order that can be decided, and a way to and from
counts of pixels. Nothing is assumed of the operations: single precision rounds, and its
order leaves out NaN. -/
class Scalar (α : Type) extends Add α, Sub α, Mul α, Div α, Neg α, LT α, LE α where
  decLT : DecidableLT α
  decLE : DecidableLE α
  /-- The number nearest to a count. -/
  ofNat : Nat → α
  /-- The number nearest to `mantissa / 10 ^ places`. -/
  ofDecimal (mantissa places : Nat) : α
  /-- The whole part of a number, and 0 for a negative one and for NaN. A number too large
  for 64 bits gives the largest count of 64 bits. -/
  whole : α → Nat

attribute [reducible, instance] Scalar.decLT Scalar.decLE

namespace Scalar

variable {α : Type} [Scalar α]

@[always_inline, inline]
instance (priority := low) instOfNat (n : Nat) : OfNat α n := ⟨Scalar.ofNat n⟩

@[always_inline]
instance float32 : Scalar Float32 where
  decLT := inferInstance
  decLE := inferInstance
  ofNat n := n.toUInt64.toFloat32
  ofDecimal mantissa places := OfScientific.ofScientific mantissa true places
  whole x := x.toUInt64.toNat

instance rat : Scalar Rat where
  decLT := inferInstance
  decLE := inferInstance
  ofNat n := n
  ofDecimal mantissa places := (mantissa : Rat) / (Nat.pow 10 places : Nat)
  whole x := x.floor.toNat

/-- One half. -/
@[inline] def half : α := 1 / 2

/-- The number `x` held between `low` and `high`. A NaN stays a NaN, for it is on neither side. -/
@[inline] def clamp (x low high : α) : α :=
  let raised := if x < low then low else x
  if high < raised then high else raised

/-- The least count that is not below `x`. -/
@[inline] def ceil (x : α) : Nat :=
  let n := whole x
  if Scalar.ofNat n < x then n + 1 else n

/-- The count nearest to `x`, with a half taken up. -/
@[inline] def round (x : α) : Nat :=
  let n := whole x
  if half ≤ x - Scalar.ofNat n then n + 1 else n

end Scalar

end PictureInPicture
