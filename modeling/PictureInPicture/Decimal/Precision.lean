-- Numbers of two widths: documents hold double precision, the layout is computed in
-- single precision. Widening is exact, narrowing takes the nearest number.

namespace PictureInPicture.Decimal

open Float.Model (UnpackedFloat Format)

/-- The number of another format that is nearest to a number. -/
def reround (target : Format) : UnpackedFloat → UnpackedFloat
  | .finite sign mantissa exponent _ => .round target sign mantissa exponent
  | x => x

/-- The single precision number nearest to a double precision number. -/
def narrow (x : Float) : Float32 :=
  .ofBits (Float32.Model.pack (reround .binary32 (Float.Model.ofBits x.toBits).unpack)).toBits

/-- A single precision number in double precision. -/
def widen (x : Float32) : Float :=
  .ofBits (Float.Model.pack (reround .binary64 (Float32.Model.ofBits x.toBits).unpack)).toBits

/-- The double precision number nearest to `mantissa * 10 ^ exponent`. -/
def double (mantissa : Nat) (exponent : Int) : Float :=
  .ofBits (Float.Model.ofScientific mantissa exponent).toBits

/-- The double precision number above all others. -/
def infinity : Float := .ofBits 0x7ff0000000000000

/-- The double precision value that is no number. -/
def notANumber : Float := .ofBits 0x7ff8000000000000

end PictureInPicture.Decimal
