-- Numbers on their way through a document. Documents hold double precision. Each number of single
-- precision is one of double precision as well, so nothing is lost when it is written down, and
-- what is read back is the number that was written.
import PictureInPicture.Decimal.Precision
import PictureInPicture.Proofs.Scalar.Arithmetic

namespace PictureInPicture

open Float.Model (Format totalExponent UnpackedFloat)
open Float.Model.UnpackedFloat

namespace Single

variable {m : Nat} {e : ℤ}

/-! ## More places -/

/-- The exponents of single precision are far from the largest one of double precision. -/
theorem exponent_lt {b : BitVec Format.binary32.numBits} {s : Sign} {hm : 0 < m}
    (h : unpack .binary32 b = .finite s m e hm) : e < 128 := by
  have hbias : (Format.binary32.exponentBias + (23 : Nat) : ℤ) = 150 := rfl
  have hb := Packed.unpacks b
  rw [h] at hb
  cases hb with
  | subnormal => decide
  | @normal _ x =>
    have hword : x.toNat < 256 := x.isLt
    change (x.toNat - (Format.binary32.exponentBias + (23 : Nat)) : ℤ) < 128
    omega

/-- A mantissa of single precision is brought to the 53 bits of double precision. -/
theorem Canonical.round_double (h : Canonical m e) (hm : 0 < m) (s : Sign)
    (hm' : 0 < m * 2 ^ (52 - m.log2)) :
    UnpackedFloat.round .binary64 s m e =
      .finite s (m * 2 ^ (52 - m.log2)) (e - (52 - m.log2 : Nat)) hm' := by
  have hlog : m.log2 < 24 := (Nat.log2_lt (Nat.ne_of_gt hm)).mpr h.room
  have hleast := h.least
  have hmin : Format.binary64.minExponent = -1074 := rfl
  have htarget : Format.binary64.targetExponent (totalExponent m e) = e - (52 - m.log2 : Nat) := by
    have hbits : Format.binary64.mantissaBits = 53 := rfl
    unfold Format.targetExponent totalExponent
    omega
  have hamount : (e - (e - (52 - m.log2 : Nat))).toNat = 52 - m.log2 := by omega
  unfold UnpackedFloat.round
  dsimp only
  rw [htarget, decreaseExponent_eq, hamount]
  apply roundWithAccuracy_stays hm'
  · rw [log2_mul_pow hm]
    exact Nat.add_sub_cancel' (by omega)
  · omega

/-- Nothing is lost on the way to double precision and back. -/
theorem Canonical.round_back (h : Canonical m e) (hm : 0 < m) (s : Sign) (a : Nat)
    (hm' : 0 < m * 2 ^ a) :
    UnpackedFloat.round .binary32 s (m * 2 ^ a) (e - a) = .finite s m e hm := by
  obtain ⟨r, hr, hdenotes⟩ := round_rounded s hm' (e - a)
  have hfull : Denotes (.finite s m e hm) _ := .finite s hm h
  rw [signed_mul_pow] at hr
  apply hdenotes.eq_of_ne_zero hfull (hr.unique hfull.rounded)
  rw [← abs_pos, abs_signed]
  positivity

/-- Double precision has room for whatever single precision has room for. -/
theorem unpack_pack_double {b : BitVec 32} :
    unpack .binary64 (pack .binary64 (Decimal.reround .binary64 (unpack .binary32 b))) =
      Decimal.reround .binary64 (unpack .binary32 b) := by
  cases hu : unpack .binary32 b with
  | infinity s => exact Packed.unpack_infinity
  | notANumber => rfl
  | zero s => exact Packed.unpack_zero
  | finite s m e hm =>
    have hc := canonical_unpack hu
    have hle := exponent_lt hu
    have hleast := hc.least
    have hlog : m.log2 < 24 := (Nat.log2_lt (Nat.ne_of_gt hm)).mpr hc.room
    have hm' : 0 < m * 2 ^ (52 - m.log2) := Nat.mul_pos hm (Nat.two_pow_pos _)
    have hfull : (m * 2 ^ (52 - m.log2)).log2 = 52 := by
      rw [log2_mul_pow hm]
      omega
    obtain ⟨hlow, hhigh⟩ := (Nat.log2_eq_iff (Nat.ne_of_gt hm')).mp hfull
    have hbias : (Format.binary64.exponentBias : ℤ) = 1023 := rfl
    have hbits : (Format.binary64.mantissaBitsWithoutImplicit : ℤ) = 52 := rfl
    have hsize : (2 ^ Format.binary64.exponentBits : Nat) = 2048 := rfl
    change unpack .binary64 (pack .binary64 (UnpackedFloat.round .binary64 s m e)) =
      UnpackedFloat.round .binary64 s m e
    rw [hc.round_double hm s hm']
    exact Packed.unpack_pack_normal hm' hlow hhigh (by omega) (by omega)

/-- Back in single precision a number is what it was. -/
theorem reround_reround {b : BitVec 32} :
    Decimal.reround .binary32 (Decimal.reround .binary64 (unpack .binary32 b)) =
      unpack .binary32 b := by
  cases hu : unpack .binary32 b with
  | infinity => rfl
  | notANumber => rfl
  | zero => rfl
  | finite s m e hm =>
    have hc := canonical_unpack hu
    have hm' : 0 < m * 2 ^ (52 - m.log2) := Nat.mul_pos hm (Nat.two_pow_pos _)
    change Decimal.reround .binary32 (UnpackedFloat.round .binary64 s m e) = _
    rw [hc.round_double hm s hm']
    exact hc.round_back hm s _ hm'

end Single

namespace Decimal

/-- A number that was widened is unpacked to the number that it was. -/
theorem unpack_widen (x : Float32) :
    (Float.Model.ofBits (widen x).toBits).unpack = reround .binary64 x.toModel.unpack := by
  change unpack .binary64 (pack .binary64 (unpack .binary64 (pack .binary64 (unpack .binary64
    (pack .binary64 (reround .binary64 (unpack .binary32 (pack .binary32 x.toModel.unpack)))))))) =
      reround .binary64 x.toModel.unpack
  rw [Single.pack_model, Single.unpack_pack_double, Single.unpack_pack_double,
    Single.unpack_pack_double]
  rfl

/-- A number that was widened is narrowed to the same number. -/
theorem narrow_widen (x : Float32) : narrow (widen x) = x := by
  have hback : reround .binary32 (reround .binary64 x.toModel.unpack) = x.toModel.unpack :=
    Single.reround_reround
  unfold narrow
  rw [unpack_widen, hback]
  change Float32.ofModel (Float32.Model.pack (unpack .binary32 (pack .binary32 _))) = x
  rw [Single.pack_model]
  change Float32.ofModel (Float32.Model.pack x.toModel.unpack) = x
  rw [Single.pack_toModel]

end Decimal

end PictureInPicture
