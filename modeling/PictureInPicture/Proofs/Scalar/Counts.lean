-- Counts of pixels in single precision. Every count up to 2 ^ 24 is a number of its own, and a
-- number that is not above such a count has no larger whole part. So no edge of a span lies
-- outside the axis that it was held inside.
import PictureInPicture.Proofs.Scalar.Packing
import PictureInPicture.Raster.Span

namespace PictureInPicture

open Float.Model (Format totalExponent UnpackedFloat)
open Float.Model.UnpackedFloat

namespace Single

/-! ## Whole parts -/

/-- The whole part of a mantissa with a power of two. -/
def truncate (m : Nat) (e : Int) : Nat := m * 2 ^ e.toNat / 2 ^ (-e).toNat

theorem truncate_mono {m m' : Nat} {e e' : Int} (hm : m ≤ m') (he : e ≤ e') :
    truncate m e ≤ truncate m' e' := by
  unfold truncate
  calc m * 2 ^ e.toNat / 2 ^ (-e).toNat
      ≤ m' * 2 ^ e'.toNat / 2 ^ (-e).toNat :=
        Nat.div_le_div_right (Nat.mul_le_mul hm (Nat.pow_le_pow_right (by decide) (by omega)))
    _ ≤ m' * 2 ^ e'.toNat / 2 ^ (-e').toNat :=
        Nat.div_le_div_left (Nat.pow_le_pow_right (by decide) (by omega)) (Nat.two_pow_pos _)

/-- A factor of two may stand in the mantissa or in the exponent. -/
theorem truncate_double (m : Nat) (e : Int) : truncate (2 * m) (e - 1) = truncate m e := by
  unfold truncate
  by_cases he : 0 < e
  · have hup : e.toNat = (e - 1).toNat + 1 := by omega
    have hdown : (-(e - 1)).toNat = (-e).toNat := by omega
    rw [hup, hdown, Nat.pow_succ, Nat.mul_comm 2 m, Nat.mul_assoc, Nat.mul_comm 2]
  · have hup : (e - 1).toNat = e.toNat := by omega
    have hdown : (-(e - 1)).toNat = (-e).toNat + 1 := by omega
    rw [hup, hdown, Nat.pow_succ, Nat.mul_assoc, Nat.mul_comm 2]
    exact Nat.mul_div_mul_right _ _ (by decide)

theorem mantissa_shiftRight (em : ExtendedMantissa) (k : Nat) :
    (em >>> k).mantissa = em.mantissa / 2 ^ k := by
  induction k with
  | zero => exact (Nat.div_one _).symm
  | succ k ih =>
    change (em >>> k).mantissa / 2 = _
    rw [ih, Nat.div_div_eq_div_mul, ← Nat.pow_succ]

theorem roundToInt_eq (s : Sign) (m : Nat) (e : Int) :
    roundToInt s m e = s.apply (truncate m e : Nat) := by
  have hexponent : (0 - (e - (e - 0).toNat)).toNat = (-e).toNat := by omega
  unfold roundToInt decreaseExponent shiftToExponent
  dsimp only
  rw [mantissa_shiftRight, hexponent, Nat.shiftLeft_eq, Int.sub_zero]
  rfl

/-! ## Unpacked counts -/

section

variable {spec : Format} {m : Nat} {e : Int}

/-- Nothing is rounded away from a mantissa that is in full already. -/
theorem shiftToTargetExponent_stays (hlog : m.log2 = spec.mantissaBitsWithoutImplicit)
    (he : spec.minExponent ≤ e) (accuracy : Accuracy) :
    shiftToTargetExponent spec m e accuracy = (.ofMantissaAndAccuracy m accuracy, e) := by
  have htarget : spec.targetExponent (totalExponent m e) = e := by
    unfold Format.targetExponent totalExponent Format.mantissaBits
    omega
  unfold shiftToTargetExponent shiftToExponent
  dsimp only
  rw [htarget, Int.sub_self]
  exact congrArg (Prod.mk _) (Int.add_zero e)

theorem roundWithAccuracy_stays (hm : 0 < m) (hlog : m.log2 = spec.mantissaBitsWithoutImplicit)
    (he : spec.minExponent ≤ e) (s : Sign) :
    roundWithAccuracy spec s m e .exact = .finite s m e hm := by
  have hrounded : (ExtendedMantissa.ofMantissaAndAccuracy m .exact).roundedMantissa = m := rfl
  unfold roundWithAccuracy
  rw [shiftToTargetExponent_stays hlog he]
  dsimp only
  rw [hrounded, shiftToTargetExponent_stays hlog he]
  exact dif_neg (Nat.ne_of_gt hm)

end

/-- A mantissa of 24 bits with an exponent in range survives packing. -/
theorem unpack_pack {m : Nat} {e : Int} (hm : 0 < m) (hlow : 2 ^ 23 ≤ m) (hhigh : m < 2 ^ 24)
    (he : -149 ≤ e) (he' : e ≤ 104) (s : Sign) :
    unpack .binary32 (pack .binary32 (.finite s m e hm)) = .finite s m e hm := by
  have hbias : (Format.binary32.exponentBias : Int) = 127 := rfl
  have hsize : (2 ^ Format.binary32.exponentBits : Nat) = 256 := rfl
  have hmantissa : (Format.binary32.mantissaBitsWithoutImplicit : Int) = 23 := rfl
  exact Packed.unpack_pack_normal hm hlow hhigh (by omega) (by omega)

section

variable {n : Nat}

theorem log2_count (hn : 0 < n) (hn' : n < 2 ^ 24) : n.log2 ≤ 23 :=
  Nat.lt_succ_iff.mp ((Nat.log2_lt (Nat.ne_of_gt hn)).mpr hn')

/-- The leading bit of a count is brought to the top of the mantissa. -/
theorem scaled_count (hn : 0 < n) (hn' : n < 2 ^ 24) :
    2 ^ 23 ≤ n * 2 ^ (23 - n.log2) ∧ n * 2 ^ (23 - n.log2) < 2 ^ 24 := by
  have hlog := log2_count hn hn'
  have hscale : 2 ^ n.log2 * 2 ^ (23 - n.log2) = 2 ^ 23 := by
    rw [← Nat.pow_add, Nat.add_sub_cancel' hlog]
  constructor
  · rw [← hscale]
    exact Nat.mul_le_mul_right _ (Nat.log2_self_le (Nat.ne_of_gt hn))
  · have hlt := Nat.mul_lt_mul_of_pos_right (Nat.lt_log2_self (n := n))
      (Nat.two_pow_pos (23 - n.log2))
    rw [Nat.pow_succ, Nat.mul_right_comm, hscale] at hlt
    exact hlt

theorem round_count (hn : 0 < n) (hn' : n < 2 ^ 24) (hm : 0 < n * 2 ^ (23 - n.log2)) :
    UnpackedFloat.round .binary32 .positive n 0 =
      .finite .positive (n * 2 ^ (23 - n.log2)) (n.log2 - 23) hm := by
  have hlog := log2_count hn hn'
  have hmin : Format.binary32.minExponent = -149 := rfl
  have htarget : Format.binary32.targetExponent (totalExponent n 0) = n.log2 - 23 := by
    unfold Format.targetExponent totalExponent
    have hbits : Format.binary32.mantissaBits = 24 := rfl
    omega
  have hamount : ((0 : Int) - (n.log2 - 23)).toNat = 23 - n.log2 := by omega
  have hexponent : (0 : Int) - (23 - n.log2 : Nat) = n.log2 - 23 := by omega
  unfold UnpackedFloat.round decreaseExponent
  dsimp only
  rw [htarget, hamount, hexponent, Nat.shiftLeft_eq]
  exact roundWithAccuracy_stays hm
    ((Nat.log2_eq_iff (Nat.ne_of_gt hm)).mpr (scaled_count hn hn'))
    (by omega) _

/-- A count up to 2 ^ 24 has a mantissa of 24 bits, and nothing is rounded away from it. -/
theorem ofNat_count (hn : 0 < n) (hn' : n ≤ 2 ^ 24) :
    ∃ m e, ∃ hm : 0 < m, UnpackedFloat.ofNat .binary32 n = .finite .positive m e hm ∧
      (2 ^ 23 ≤ m ∧ m < 2 ^ 24) ∧ (-149 ≤ e ∧ e ≤ 104) ∧ truncate m e = n := by
  by_cases htop : n = 2 ^ 24
  · subst htop
    exact ⟨2 ^ 23, 1, by decide, rfl, by decide, by decide, by decide⟩
  · have hlt : n < 2 ^ 24 := by omega
    have hlog := log2_count hn hlt
    have hscaled := scaled_count hn hlt
    have hm : 0 < n * 2 ^ (23 - n.log2) := by omega
    have hpos : compare (n : Int) 0 = .gt := Int.compare_eq_gt.mpr (by omega)
    refine ⟨n * 2 ^ (23 - n.log2), n.log2 - 23, hm, ?_, hscaled, by omega, ?_⟩
    · unfold UnpackedFloat.ofNat UnpackedFloat.ofInt UnpackedFloat.normalize
      rw [hpos]
      exact round_count hn hlt hm
    · have hup : ((n.log2 : Int) - 23).toNat = 0 := by omega
      have hdown : (-((n.log2 : Int) - 23)).toNat = 23 - n.log2 := by omega
      unfold truncate
      rw [hup, hdown, Nat.pow_zero, Nat.mul_one]
      exact Nat.mul_div_cancel _ (Nat.two_pow_pos _)

end

/-! ## Numbers and counts -/

/-- What a number is unpacked to has a mantissa of at most 24 bits. -/
theorem mantissa_lt {b : BitVec Format.binary32.numBits} {s : Sign} {m : Nat} {e : Int}
    {hm : 0 < m} (h : unpack .binary32 b = .finite s m e hm) : m < 2 ^ 24 := by
  have hb := Packed.unpacks b
  rw [h] at hb
  cases hb with
  | @subnormal _ v =>
    have hroom : v.toNat < 2 ^ 23 := v.isLt
    omega
  | @normal _ _ v =>
    have hroom : v.toNat < 2 ^ 23 := v.isLt
    change 2 ^ 23 + v.toNat < 2 ^ 24
    omega

/-- A word holds a count that fits, and no more than a count in any case. -/
theorem toNat_ofNatClamp_le (k : Nat) : (UInt64.ofNatClamp k).toNat ≤ k := by
  unfold UInt64.ofNatClamp
  split
  · exact Nat.le_refl k
  · change UInt64.size - 1 ≤ k
    omega

theorem toNat_ofNatClamp {k : Nat} (hk : k < UInt64.size) : (UInt64.ofNatClamp k).toNat = k := by
  unfold UInt64.ofNatClamp
  rw [dif_pos hk]
  rfl

section

variable {n : Nat}

/-- The number for a count has a mantissa of 24 bits, and the count for a whole part. -/
theorem unpack_count (hn : 0 < n) (hn' : n ≤ 2 ^ 24) :
    ∃ m e, ∃ hm : 0 < m,
      (Scalar.ofNat n : Float32).toModel.unpack = .finite .positive m e hm ∧
        2 ^ 23 ≤ m ∧ truncate m e = n := by
  obtain ⟨m, e, hm, hcount, ⟨hlow, hhigh⟩, ⟨he, he'⟩, hwhole⟩ := ofNat_count hn hn'
  have hword : n.toUInt64.toNat = n := Nat.mod_eq_of_lt (by omega)
  refine ⟨m, e, hm, ?_, hlow, hwhole⟩
  change unpack .binary32 (pack .binary32 (UnpackedFloat.ofNat .binary32 n.toUInt64.toNat)) = _
  rw [hword, hcount]
  exact unpack_pack hm hlow hhigh he he' .positive

/-- A count is the whole part of its number. -/
theorem whole_ofNat (hn : 0 < n) (hn' : n ≤ 2 ^ 24) :
    Scalar.whole (Scalar.ofNat n : Float32) = n := by
  obtain ⟨m, e, hm, hcount, _, hwhole⟩ := unpack_count hn hn'
  change (UInt64.ofNatClamp (toInt 0 (UInt64.size - 1)
    (Scalar.ofNat n : Float32).toModel.unpack).toNat).toNat = n
  rw [hcount]
  change (UInt64.ofNatClamp (roundToInt .positive m e).toNat).toNat = n
  rw [roundToInt_eq, hwhole]
  exact toNat_ofNatClamp (Nat.lt_of_le_of_lt hn' (by decide))

/-- A number that is not above a count has no larger whole part. NaN has none at all. -/
theorem whole_le_of_not_lt {x : Float32} (hn : 0 < n) (hn' : n ≤ 2 ^ 24)
    (hx : ¬ (Scalar.ofNat n : Float32) < x) : Scalar.whole x ≤ n := by
  obtain ⟨m, e, hm, hcount, hlow, hwhole⟩ := unpack_count hn hn'
  change (UInt64.ofNatClamp (toInt 0 (UInt64.size - 1) x.toModel.unpack).toNat).toNat ≤ n
  apply Nat.le_trans (toNat_ofNatClamp_le _)
  have hless : UnpackedFloat.compare (.finite .positive m e hm) x.toModel.unpack ≠ some .lt := by
    intro hlt
    apply hx
    apply decide_eq_true
    change (UnpackedFloat.compare (Scalar.ofNat n : Float32).toModel.unpack x.toModel.unpack ==
      some .lt) = true
    rw [hcount, hlt]
    rfl
  cases hunpack : x.toModel.unpack with
  | notANumber => exact Nat.zero_le n
  | zero => exact Nat.zero_le n
  | infinity s =>
    rw [hunpack] at hless
    cases s with
    | positive => exact absurd rfl hless
    | negative => exact Nat.zero_le n
  | finite s m' e' hm' =>
    have hm'' : m' < 2 ^ 24 := mantissa_lt hunpack
    rw [hunpack] at hless
    change (roundToInt s m' e').toNat ≤ n
    rw [roundToInt_eq]
    cases s with
    | negative =>
      change (-(truncate m' e' : Int)).toNat ≤ n
      omega
    | positive =>
      change truncate m' e' ≤ n
      rw [← hwhole]
      have hle : ¬ (e < e' ∨ e = e' ∧ m < m') := by
        intro habove
        apply hless
        apply congrArg some
        rw [Ordering.then_eq_lt, Int.compare_eq_lt, Int.compare_eq_eq, Nat.compare_eq_lt]
        exact habove
      by_cases he : e' < e
      · calc truncate m' e' ≤ truncate (2 * m) (e - 1) := truncate_mono (by omega) (by omega)
          _ = truncate m e := truncate_double m e
      · exact truncate_mono (by omega) (by omega)

theorem ceil_le_of_not_lt {x : Float32} (hn : 0 < n) (hn' : n ≤ 2 ^ 24)
    (hx : ¬ (Scalar.ofNat n : Float32) < x) : Scalar.ceil x ≤ n := by
  have hwhole := whole_le_of_not_lt hn hn' hx
  unfold Scalar.ceil
  dsimp only
  split
  · rename_i habove
    have hne : Scalar.whole x ≠ n := by
      intro htop
      rw [htop] at habove
      exact hx habove
    omega
  · exact hwhole

end

end Single

/-! ## Spans -/

namespace Span

/-- An edge lies on its axis, or at the end of it. -/
theorem edge_le (position : Float32) {side : UInt32} (hside : 0 < side.toNat)
    (hside' : side.toNat ≤ 2 ^ 24) : edge position side ≤ side.toNat := by
  unfold edge
  dsimp only
  apply Nat.le_trans (Nat.min_le_right _ _)
  split
  · exact Nat.le_of_eq (Single.whole_ofNat hside hside')
  · exact Single.ceil_le_of_not_lt hside hside' ‹_›

/-- A span covers pixels of the output only. -/
theorem lt_of_covers {r : Rect Float32} {output : Size} (hw : 0 < output.width.toNat)
    (hw' : output.width.toNat ≤ 2 ^ 24) (hh : 0 < output.height.toNat)
    (hh' : output.height.toNat ≤ 2 ^ 24) {x y : Nat} (h : (of r output).Covers x y) :
    x < output.width.toNat ∧ y < output.height.toNat :=
  ⟨Nat.lt_of_lt_of_le h.2.1 (edge_le _ hw hw'), Nat.lt_of_lt_of_le h.2.2.2 (edge_le _ hh hh')⟩

end Span

end PictureInPicture
