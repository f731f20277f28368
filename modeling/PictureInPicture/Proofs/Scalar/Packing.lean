-- How a float is kept in a word: a bit for the sign, the exponent, and the mantissa without its
-- leading bit. What a word is unpacked to is told once, for words of all formats, and what is
-- packed from that is the word again.
import Mathlib.Algebra.Group.Nat.Defs

namespace PictureInPicture.Packed

open Float.Model (Format totalExponent UnpackedFloat)
open Float.Model.UnpackedFloat

variable {spec : Format} {s : Sign} {x : BitVec spec.exponentBits}
  {v : BitVec spec.mantissaBitsWithoutImplicit} {m : Nat} {e : Int}

/-! ## The parts of a word -/

theorem sign_toBitVec (s : Sign) : Sign.ofBitVec s.toBitVec = s := by
  cases s <;> rfl

theorem toBitVec_ofBitVec (bit : BitVec 1) : (Sign.ofBitVec bit).toBitVec = bit := by
  rcases BitVec.eq_zero_or_eq_one bit with rfl | rfl <;> rfl

theorem unpackSign_packComponents : unpackSign (packComponents spec s x v) = s.toBitVec := by
  apply BitVec.eq_of_getLsbD_eq
  intro i hi
  have hfirst : i = 0 := by omega
  subst hfirst
  unfold unpackSign packComponents
  simp [BitVec.getLsbD_append, BitVec.getElem_append]

/-- Each word is made up of a sign, an exponent and a mantissa. -/
theorem exists_components (b : BitVec spec.numBits) : ∃ s x v, b = packComponents spec s x v := by
  refine ⟨Sign.ofBitVec (unpackSign b), unpackExponent b, unpackMantissa b, ?_⟩
  have hm := spec.hm
  have he := spec.he
  have hbits : spec.numBits = 1 + spec.exponentBits + spec.mantissaBitsWithoutImplicit := rfl
  unfold packComponents unpackSign unpackExponent unpackMantissa BitVec.extractLsb
  rw [toBitVec_ofBitVec]
  apply BitVec.eq_of_getLsbD_eq
  intro i hi
  simp only [BitVec.getLsbD_append, BitVec.getLsbD_cast, BitVec.getLsbD_extractLsb']
  split
  · rw [decide_eq_true (by omega), Bool.true_and, Nat.zero_add]
  · split
    · rw [decide_eq_true (by omega), Bool.true_and, Nat.add_sub_cancel' (by omega)]
    · rw [decide_eq_true (by omega), Bool.true_and]
      exact congrArg b.getLsbD (by omega)

theorem ne_zero_iff {n : Nat} {v : BitVec n} : v ≠ 0#n ↔ 0 < v.toNat := by
  rw [Nat.pos_iff_ne_zero, ne_eq, ne_eq, ← BitVec.toNat_inj, BitVec.toNat_zero]

theorem ne_max_iff {n : Nat} {v : BitVec n} : v ≠ -1#n ↔ v.toNat + 1 < 2 ^ n := by
  have hword := v.isLt
  rw [ne_eq, ← BitVec.toNat_inj, BitVec.neg_one_eq_allOnes, BitVec.toNat_allOnes]
  omega

theorem zero_ne_max : 0#(spec.exponentBits) ≠ -1#_ := by
  rw [ne_max_iff, BitVec.toNat_zero]
  exact Nat.one_lt_two_pow (Nat.ne_of_gt spec.he)

/-! ## Unpacking -/

/-- The leading bit of a mantissa in full is not written down. -/
theorem toNat_one_append {n : Nat} (v : BitVec n) : (1#1 ++ v).toNat = 2 ^ n + v.toNat := by
  have hone : (1#1).toNat = 1 := rfl
  rw [BitVec.toNat_append, ← Nat.shiftLeft_add_eq_or_of_lt v.isLt, Nat.shiftLeft_eq, hone,
    Nat.one_mul]

theorem unpack_infinity : unpack spec (packComponents spec s (-1#_) 0#_) = .infinity s := by
  unfold unpack
  dsimp only
  rw [unpackExponent_packComponents, unpackSign_packComponents, sign_toBitVec, if_pos rfl,
    if_pos unpackMantissa_packComponents]

/-- A mantissa behind the largest exponent tells of no number. -/
theorem unpack_notANumber (hv : v ≠ 0#_) :
    unpack spec (packComponents spec s (-1#_) v) = .notANumber := by
  unfold unpack
  dsimp only
  rw [unpackExponent_packComponents, if_pos rfl, if_neg (unpackMantissa_packComponents ▸ hv)]

theorem unpack_zero : unpack spec (packComponents spec s 0#_ 0#_) = .zero s := by
  unfold unpack
  dsimp only
  rw [unpackExponent_packComponents, unpackSign_packComponents, sign_toBitVec,
    if_neg zero_ne_max, if_pos rfl, dif_pos unpackMantissa_packComponents]

/-- Behind the smallest exponent no bit is left out. -/
theorem unpack_subnormal (hv : 0 < v.toNat) :
    unpack spec (packComponents spec s 0#_ v) =
      .finite s v.toNat (1 - (spec.exponentBias + spec.mantissaBitsWithoutImplicit)) hv := by
  unfold unpack
  dsimp only
  rw [unpackExponent_packComponents, unpackSign_packComponents, sign_toBitVec,
    if_neg zero_ne_max, if_pos rfl,
    dif_neg (unpackMantissa_packComponents ▸ ne_zero_iff.mpr hv), finite.injEq,
    unpackMantissa_packComponents, BitVec.toNat_zero]
  refine ⟨rfl, rfl, ?_⟩
  omega

theorem unpack_normal (hzero : 0 < x.toNat) (hmax : x.toNat + 1 < 2 ^ spec.exponentBits)
    (hv : 0 < 2 ^ spec.mantissaBitsWithoutImplicit + v.toNat) :
    unpack spec (packComponents spec s x v) =
      .finite s (2 ^ spec.mantissaBitsWithoutImplicit + v.toNat)
        (x.toNat - (spec.exponentBias + spec.mantissaBitsWithoutImplicit)) hv := by
  unfold unpack
  dsimp only
  rw [unpackExponent_packComponents, unpackSign_packComponents, sign_toBitVec,
    if_neg (ne_max_iff.mpr hmax), if_neg (ne_zero_iff.mpr hzero), finite.injEq,
    unpackMantissa_packComponents, toNat_one_append]
  exact ⟨rfl, rfl, rfl⟩

/-- All the words there are, and what each of them is unpacked to. -/
inductive Unpacks (spec : Format) : BitVec spec.numBits → UnpackedFloat → Prop where
  | infinity (s : Sign) : Unpacks spec (packComponents spec s (-1#_) 0#_) (.infinity s)
  | notANumber (s : Sign) {v : BitVec spec.mantissaBitsWithoutImplicit} (hv : v ≠ 0#_) :
      Unpacks spec (packComponents spec s (-1#_) v) .notANumber
  | zero (s : Sign) : Unpacks spec (packComponents spec s 0#_ 0#_) (.zero s)
  | subnormal (s : Sign) {v : BitVec spec.mantissaBitsWithoutImplicit} (hv : 0 < v.toNat) :
      Unpacks spec (packComponents spec s 0#_ v)
        (.finite s v.toNat (1 - (spec.exponentBias + spec.mantissaBitsWithoutImplicit)) hv)
  | normal (s : Sign) {x : BitVec spec.exponentBits}
      {v : BitVec spec.mantissaBitsWithoutImplicit} (hzero : 0 < x.toNat)
      (hmax : x.toNat + 1 < 2 ^ spec.exponentBits)
      (hv : 0 < 2 ^ spec.mantissaBitsWithoutImplicit + v.toNat) :
      Unpacks spec (packComponents spec s x v)
        (.finite s (2 ^ spec.mantissaBitsWithoutImplicit + v.toNat)
          (x.toNat - (spec.exponentBias + spec.mantissaBitsWithoutImplicit)) hv)

theorem unpacks (b : BitVec spec.numBits) : Unpacks spec b (unpack spec b) := by
  obtain ⟨s, x, v, rfl⟩ := exists_components b
  by_cases hmax : x = -1#_
  · subst hmax
    by_cases hv : v = 0#_
    · subst hv
      rw [unpack_infinity]
      exact .infinity s
    · rw [unpack_notANumber hv]
      exact .notANumber s hv
  by_cases hzero : x = 0#_
  · subst hzero
    by_cases hv : v = 0#_
    · subst hv
      rw [unpack_zero]
      exact .zero s
    · rw [unpack_subnormal (ne_zero_iff.mp hv)]
      exact .subnormal s _
  · have hv : 0 < 2 ^ spec.mantissaBitsWithoutImplicit + v.toNat :=
      Nat.add_pos_left (Nat.two_pow_pos _) _
    rw [unpack_normal (ne_zero_iff.mp hzero) (ne_max_iff.mp hmax) hv]
    exact .normal s (ne_zero_iff.mp hzero) (ne_max_iff.mp hmax) hv

/-! ## Packing -/

/-- A mantissa in full is written without its leading bit. -/
theorem pack_normal (hm : 0 < m) (hlow : 2 ^ spec.mantissaBitsWithoutImplicit ≤ m)
    (hhigh : m < 2 ^ (spec.mantissaBitsWithoutImplicit + 1)) {k : Nat}
    (hk : (e + spec.exponentBias + spec.mantissaBitsWithoutImplicit).toNat = k)
    (hk' : k + 1 < 2 ^ spec.exponentBits) :
    pack spec (.finite s m e hm) = packComponents spec s (BitVec.ofNat _ k) (BitVec.ofNat _ m) := by
  have hlog : m.log2 = spec.mantissaBitsWithoutImplicit :=
    (Nat.log2_eq_iff (by omega)).mpr ⟨hlow, hhigh⟩
  have hbits : m.log2 + 1 = spec.mantissaBits := by
    rw [hlog]
    exact Nat.add_comm _ _
  unfold pack
  dsimp only
  rw [hk, if_neg (by omega)]
  exact if_pos hbits

/-- A mantissa that is not in full is written behind the smallest exponent. -/
theorem pack_subnormal (hm : 0 < m) (hlow : m < 2 ^ spec.mantissaBitsWithoutImplicit)
    (he : (e + spec.exponentBias + spec.mantissaBitsWithoutImplicit).toNat + 1 <
      2 ^ spec.exponentBits) :
    pack spec (.finite s m e hm) = packComponents spec s 0#_ (BitVec.ofNat _ m) := by
  have hlog : ¬ m.log2 + 1 = spec.mantissaBits := by
    have := (Nat.log2_lt (Nat.ne_of_gt hm)).mpr hlow
    unfold Format.mantissaBits
    omega
  unfold pack
  exact (if_neg (Nat.not_le.mpr he)).trans (if_neg hlog)

/-- A mantissa in full with an exponent in range survives packing. -/
theorem unpack_pack_normal (hm : 0 < m) (hlow : 2 ^ spec.mantissaBitsWithoutImplicit ≤ m)
    (hhigh : m < 2 ^ (spec.mantissaBitsWithoutImplicit + 1))
    (he : 0 < e + spec.exponentBias + spec.mantissaBitsWithoutImplicit)
    (he' : e + spec.exponentBias + spec.mantissaBitsWithoutImplicit + 1 <
      (2 ^ spec.exponentBits : Nat)) :
    unpack spec (pack spec (.finite s m e hm)) = .finite s m e hm := by
  generalize hk : (e + spec.exponentBias + spec.mantissaBitsWithoutImplicit).toNat = k
  have hexponent : (BitVec.ofNat spec.exponentBits k).toNat = k := by
    rw [BitVec.toNat_ofNat]
    exact Nat.mod_eq_of_lt (by omega)
  have hmantissa : (BitVec.ofNat spec.mantissaBitsWithoutImplicit m).toNat =
      m - 2 ^ spec.mantissaBitsWithoutImplicit := by
    rw [BitVec.toNat_ofNat, Nat.mod_eq_sub_mod hlow]
    exact Nat.mod_eq_of_lt (by omega)
  rw [pack_normal hm hlow hhigh hk (by omega),
    unpack_normal (by omega) (by omega) (by omega), finite.injEq, hexponent, hmantissa]
  exact ⟨rfl, by omega, by omega⟩

/-- A word that was unpacked is packed to the same word. -/
theorem pack_unpack (hwide : 1 < spec.exponentBits) {b : BitVec spec.numBits}
    (hvalid : spec.Valid b) : pack spec (unpack spec b) = b := by
  have hsize : 2 ^ 2 ≤ 2 ^ spec.exponentBits := Nat.pow_le_pow_right (by decide) hwide
  have hb := unpacks b
  generalize unpack spec b = u at hb
  cases hb with
  | infinity s => rfl
  | notANumber s hv =>
    exact (hvalid.eq_packedNaN unpackExponent_packComponents
      (unpackMantissa_packComponents ▸ hv)).symm
  | zero s => rfl
  | @subnormal s v hv =>
    rw [pack_subnormal hv v.isLt (by omega), BitVec.ofNat_toNat, BitVec.setWidth_eq]
  | @normal s x v hzero hmax hv =>
    have hroom := v.isLt
    have hexponent : BitVec.ofNat spec.exponentBits x.toNat = x := by
      rw [BitVec.ofNat_toNat, BitVec.setWidth_eq]
    have hmantissa : BitVec.ofNat spec.mantissaBitsWithoutImplicit
        (2 ^ spec.mantissaBitsWithoutImplicit + v.toNat) = v := by
      apply BitVec.eq_of_toNat_eq
      rw [BitVec.toNat_ofNat, Nat.add_mod_left, Nat.mod_eq_of_lt hroom]
    rw [pack_normal hv (by omega) (by omega) (k := x.toNat) (by omega) hmax, hexponent, hmantissa]

end PictureInPicture.Packed
