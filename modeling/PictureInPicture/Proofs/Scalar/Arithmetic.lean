-- Laws of single precision. A number that is kept in 32 bits is read as a rational one. What is
-- computed with it is the exact result rounded, the order is the one of the rationals, and
-- whatever lies between two numbers is a number too.
import PictureInPicture.Proofs.Scalar.Values

namespace PictureInPicture.Single

open Float.Model (Format totalExponent UnpackedFloat)
open Float.Model.UnpackedFloat

variable {p q r l h : ℚ} {x y low high : Float32}

/-! ## Packing -/

theorem Canonical.unpack_pack {m : Nat} {e : ℤ} (h : Canonical m e) (hm : 0 < m) (he : e ≤ 104)
    (s : Sign) : unpack .binary32 (pack .binary32 (.finite s m e hm)) = .finite s m e hm := by
  by_cases hlarge : 2 ^ 23 ≤ m
  · exact Single.unpack_pack hm hlarge h.room h.least he s
  · obtain rfl : e = -149 := h.leading.resolve_right hlarge
    have hlow : m < 2 ^ Format.binary32.mantissaBitsWithoutImplicit := Nat.lt_of_not_le hlarge
    have hmantissa : (BitVec.ofNat Format.binary32.mantissaBitsWithoutImplicit m).toNat = m := by
      rw [BitVec.toNat_ofNat]
      exact Nat.mod_eq_of_lt hlow
    rw [Packed.pack_subnormal hm hlow (by decide),
      Packed.unpack_subnormal (hmantissa.symm ▸ hm), finite.injEq]
    exact ⟨rfl, hmantissa, rfl⟩

/-- A float in range survives packing. -/
theorem Denotes.unpack_pack {u : UnpackedFloat} (h : Denotes u q) (hq : |q| < 2 ^ 128) :
    unpack .binary32 (pack .binary32 u) = u := by
  cases h with
  | zero s => exact Packed.unpack_zero
  | @finite s m e hm h =>
    apply h.unpack_pack hm
    rcases h.leading with rfl | hleading
    · decide
    · rw [abs_signed] at hq
      have hleading' : (2 : ℚ) ^ (23 : ℤ) ≤ m := by exact_mod_cast hleading
      have hlt : (2 : ℚ) ^ (23 + e : ℤ) < 2 ^ (128 : ℤ) := by
        rw [zpow_add₀ (by norm_num)]
        exact lt_of_le_of_lt (mul_le_mul_of_nonneg_right hleading' (by positivity))
          (by exact_mod_cast hq)
      rw [zpow_lt_zpow_iff_right₀ (by norm_num)] at hlt
      omega

/-- What a finite number is unpacked to is a mantissa in full. -/
theorem canonical_unpack {b : BitVec Format.binary32.numBits} {s : Sign} {m : Nat} {e : ℤ}
    {hm : 0 < m} (h : unpack .binary32 b = .finite s m e hm) : Canonical m e := by
  have hbias : (Format.binary32.exponentBias + (23 : Nat) : ℤ) = 150 := rfl
  have hb := Packed.unpacks b
  have hroom := mantissa_lt h
  rw [h] at hb
  cases hb with
  | subnormal => exact ⟨hroom, by decide, .inl (by decide)⟩
  | normal _ hzero =>
    refine ⟨hroom, ?_, .inr (Nat.le_add_right _ _)⟩
    change -149 ≤ (_ - (Format.binary32.exponentBias + (23 : Nat)) : ℤ)
    omega

theorem pack_model (x : Float32.Model) : pack .binary32 x.unpack = x.toBits.toBitVec :=
  Packed.pack_unpack (by decide) x.valid

/-- A number that is unpacked is packed to itself. -/
theorem pack_toModel (x : Float32) : Float32.Model.pack x.toModel.unpack = x.toModel := by
  unfold Float32.Model.pack
  rw [Float32.Model.mk.injEq, pack_model]

/-! ## Numbers that are read -/

/-- The number is finite, and it stands for the rational one. -/
def Reads (x : Float32) (q : ℚ) : Prop := Denotes x.toModel.unpack q

theorem reads_pack {u : UnpackedFloat} (h : Denotes u r) (hr : |r| ≤ 2 ^ 127) :
    Reads ⟨.pack u⟩ r := by
  change Denotes (unpack .binary32 (pack .binary32 u)) r
  rw [h.unpack_pack (lt_of_le_of_lt hr (by norm_num))]
  exact h

theorem Reads.add (hx : Reads x p) (hy : Reads y q) (hpq : |p + q| ≤ 2 ^ 127) :
    ∃ r, Rounded (p + q) r ∧ Reads (x + y) r := by
  obtain ⟨r, hr, hdenotes⟩ := add_rounded hx hy
  exact ⟨r, hr, reads_pack hdenotes (hr.within hpq)⟩

theorem Reads.sub (hx : Reads x p) (hy : Reads y q) (hpq : |p - q| ≤ 2 ^ 127) :
    ∃ r, Rounded (p - q) r ∧ Reads (x - y) r := by
  obtain ⟨r, hr, hdenotes⟩ := sub_rounded hx hy
  exact ⟨r, hr, reads_pack hdenotes (hr.within hpq)⟩

theorem Reads.mul (hx : Reads x p) (hy : Reads y q) (hpq : |p * q| ≤ 2 ^ 127) :
    ∃ r, Rounded (p * q) r ∧ Reads (x * y) r := by
  obtain ⟨r, hr, hdenotes⟩ := mul_rounded hx hy
  exact ⟨r, hr, reads_pack hdenotes (hr.within hpq)⟩

/-- Nothing is rounded away from a sum that is a number. -/
theorem Reads.add_exact (hx : Reads x p) (hy : Reads y q) (hpq : |p + q| ≤ 2 ^ 127)
    (h : Rounded (p + q) (p + q)) : Reads (x + y) (p + q) := by
  obtain ⟨r, hr, hsum⟩ := hx.add hy hpq
  rwa [hr.unique h] at hsum

theorem Reads.sub_exact (hx : Reads x p) (hy : Reads y q) (hpq : |p - q| ≤ 2 ^ 127)
    (h : Rounded (p - q) (p - q)) : Reads (x - y) (p - q) := by
  obtain ⟨r, hr, hdifference⟩ := hx.sub hy hpq
  rwa [hr.unique h] at hdifference

/-- Nothing is rounded away from a product that is a number. -/
theorem Reads.mul_exact (hx : Reads x p) (hy : Reads y q) (hpq : |p * q| ≤ 2 ^ 127)
    (h : Rounded (p * q) (p * q)) : Reads (x * y) (p * q) := by
  obtain ⟨r, hr, hproduct⟩ := hx.mul hy hpq
  rwa [hr.unique h] at hproduct

/-- A rational other than zero is kept in one way only. -/
theorem Reads.eq_of_ne_zero (hx : Reads x q) (hy : Reads y q) (hq : q ≠ 0) : x = y := by
  have hunpack : x.toModel.unpack = y.toModel.unpack := Denotes.eq_of_ne_zero hx hy rfl hq
  have hmodel : x.toModel = y.toModel := by rw [← pack_toModel x, hunpack, pack_toModel y]
  exact congrArg Float32.ofModel hmodel

/-- Zero is kept with either sign. -/
theorem Reads.eq_zero (h : Reads x q) (hq : q = 0) : ∃ s, x = .ofModel (.pack (.zero s)) := by
  have hmodel := pack_toModel x
  unfold Reads at h
  generalize x.toModel.unpack = u at h hmodel
  cases h with
  | zero s => exact ⟨s, congrArg Float32.ofModel hmodel.symm⟩
  | @finite s m e hm h =>
    have hpos : (0 : ℚ) < m * 2 ^ e := by positivity
    rw [← abs_signed s, hq, abs_zero] at hpos
    exact absurd hpos (lt_irrefl 0)

/-! ## Order -/

theorem le_iff_unpack : x ≤ y ↔ UnpackedFloat.le x.toModel.unpack y.toModel.unpack = true := by
  change decide (x.toModel ≤ y.toModel) = true ↔ _
  rw [decide_eq_true_iff]
  rfl

theorem lt_iff_unpack : x < y ↔ UnpackedFloat.lt x.toModel.unpack y.toModel.unpack = true := by
  change decide (x.toModel < y.toModel) = true ↔ _
  rw [decide_eq_true_iff]
  rfl

theorem Reads.lt_iff (hx : Reads x p) (hy : Reads y q) : x < y ↔ p < q := by
  rw [lt_iff_unpack]
  unfold UnpackedFloat.lt
  rw [Denotes.compare_eq hx hy, beq_iff_eq, Option.some_inj, compare_lt_iff_lt]

theorem Reads.le_iff (hx : Reads x p) (hy : Reads y q) : x ≤ y ↔ p ≤ q := by
  rw [le_iff_unpack]
  unfold UnpackedFloat.le
  rw [Denotes.compare_eq hx hy]
  exact Ordering.isLE_iff_ne_gt.trans compare_le_iff_le

theorem le_of_lt (h : x < y) : x ≤ y := by
  rw [lt_iff_unpack, UnpackedFloat.lt, beq_iff_eq] at h
  rw [le_iff_unpack, UnpackedFloat.le, h]
  rfl

/-- A float that lies between two numbers is none of the infinities, and not undefined. -/
theorem finite_of_between {a b u : UnpackedFloat} (ha : Denotes a l) (hb : Denotes b h)
    (hu : UnpackedFloat.le a u = true) (hu' : UnpackedFloat.le u b = true) :
    (∃ s, u = .zero s) ∨ ∃ s m e hm, u = .finite s m e hm := by
  cases u with
  | notANumber => cases hb <;> cases hu'
  | infinity s =>
    cases s with
    | positive => cases hb <;> cases hu'
    | negative =>
      cases ha with
      | zero => cases hu
      | finite s => cases s <;> cases hu
  | zero s => exact .inl ⟨s, rfl⟩
  | finite s m e hm => exact .inr ⟨s, m, e, hm, rfl⟩

/-- Whatever lies between two numbers is a number. -/
theorem reads_of_between (hlow : Reads low l) (hhigh : Reads high h) (hx : low ≤ x)
    (hx' : x ≤ high) : ∃ q, Reads x q ∧ l ≤ q ∧ q ≤ h := by
  have hreads : ∃ q, Reads x q := by
    rcases finite_of_between hlow hhigh (le_iff_unpack.mp hx) (le_iff_unpack.mp hx') with
      ⟨s, hzero⟩ | ⟨s, m, e, hm, hfinite⟩
    · refine ⟨0, ?_⟩
      unfold Reads
      rw [hzero]
      exact .zero s
    · refine ⟨(s.apply m : ℤ) * 2 ^ e, ?_⟩
      unfold Reads
      rw [hfinite]
      exact .finite s hm (canonical_unpack hfinite)
  obtain ⟨q, hq⟩ := hreads
  exact ⟨q, hq, (hlow.le_iff hq).mp hx, (hq.le_iff hhigh).mp hx'⟩

end PictureInPicture.Single
