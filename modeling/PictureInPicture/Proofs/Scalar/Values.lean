-- The numbers that single precision computes with. A finite one stands for a rational number, and
-- what stands for the result of a sum, of a difference or of a product is the exact result rounded,
-- as long as that one does not leave the range.
import PictureInPicture.Proofs.Scalar.Rounding

namespace PictureInPicture.Single

open Float.Model (Format totalExponent UnpackedFloat)
open Float.Model.UnpackedFloat

variable {x q r p : ℚ} {m k : Nat} {e t : ℤ}

/-! ## The bits after a mantissa -/

/-- The number lies after the mantissa, as far as the two bits behind it tell. -/
def Locates : ExtendedMantissa → ℚ → Prop
  | ⟨m, false, false⟩, x => x = m
  | ⟨m, false, true⟩, x => m < x ∧ x < m + 1 / 2
  | ⟨m, true, false⟩, x => x = m + 1 / 2
  | ⟨m, true, true⟩, x => m + 1 / 2 < x ∧ x < m + 1

theorem Locates.shiftRightOne {em : ExtendedMantissa} (h : Locates em x) :
    Locates em.shiftRightOne (x / 2) := by
  obtain ⟨m, first, rest⟩ := em
  obtain ⟨k, rfl | rfl⟩ := Nat.even_or_odd' m
  · have hhalf : 2 * k / 2 = k := by omega
    have hbit : (2 * k % 2 != 0) = false := by simp
    cases first <;> cases rest <;>
      simp only [Locates, ExtendedMantissa.shiftRightOne, hhalf, hbit, Bool.or_self, Bool.or_true,
        Bool.or_false] at h ⊢ <;>
      push_cast at h
    · linarith
    · constructor <;> linarith
    · constructor <;> linarith
    · constructor <;> linarith
  · have hhalf : (2 * k + 1) / 2 = k := by omega
    have hbit : ((2 * k + 1) % 2 != 0) = true := by simp
    cases first <;> cases rest <;>
      simp only [Locates, ExtendedMantissa.shiftRightOne, hhalf, hbit, Bool.or_self, Bool.or_true,
        Bool.or_false] at h ⊢ <;>
      push_cast at h
    · linarith
    · constructor <;> linarith
    · constructor <;> linarith
    · constructor <;> linarith

theorem Locates.shiftRight {em : ExtendedMantissa} (h : Locates em x) (k : Nat) :
    Locates (em >>> k) (x / 2 ^ k) := by
  induction k with
  | zero =>
    rw [pow_zero, div_one]
    exact h
  | succ k ih =>
    rw [pow_succ, ← div_div]
    exact ih.shiftRightOne

/-- The mantissa is rounded to the whole number that is nearest. -/
theorem Locates.nearest {em : ExtendedMantissa} (h : Locates em x) :
    Nearest x em.roundedMantissa := by
  obtain ⟨m, first, rest⟩ := em
  cases first <;> cases rest
  · have hx : x = m := h
    rw [hx]
    exact nearest_self (m : ℤ)
  · obtain ⟨hlow, hhigh⟩ : (m : ℚ) < x ∧ x < m + 1 / 2 := h
    change Nearest x (m : ℤ)
    apply nearest_of_lt
    rw [abs_lt]
    constructor <;> push_cast <;> linarith
  · -- The number is halfway, and the last bit of the mantissa decides.
    have hx : x = m + 1 / 2 := h
    change Nearest x ((m + m % 2 : Nat) : ℤ)
    obtain ⟨k, rfl | rfl⟩ := Nat.even_or_odd' m
    · have hbit : 2 * k % 2 = 0 := by omega
      rw [hbit, hx]
      refine ⟨?_, fun _ => ⟨k, by push_cast; ring⟩⟩
      push_cast
      norm_num
    · have hbit : (2 * k + 1) % 2 = 1 := by omega
      rw [hbit, hx]
      refine ⟨?_, fun _ => ⟨k + 1, by push_cast; ring⟩⟩
      push_cast
      ring_nf
      norm_num
  · obtain ⟨hlow, hhigh⟩ : (m : ℚ) + 1 / 2 < x ∧ x < m + 1 := h
    change Nearest x ((m + 1 : Nat) : ℤ)
    apply nearest_of_lt
    rw [abs_lt]
    constructor <;> push_cast <;> linarith

/-! ## Mantissas that are written in full -/

/-- The mantissa takes up all the room there is, or its last place is the smallest. -/
structure Canonical (m : Nat) (e : ℤ) : Prop where
  room : m < 2 ^ 24
  least : -149 ≤ e
  leading : e = -149 ∨ 2 ^ 23 ≤ m

/-- The number that a float stands for. -/
inductive Denotes : UnpackedFloat → ℚ → Prop where
  | zero (s : Sign) : Denotes (.zero s) 0
  | finite (s : Sign) {m : Nat} {e : ℤ} (hm : 0 < m) (h : Canonical m e) :
      Denotes (.finite s m e hm) (s.apply m * 2 ^ e)

theorem abs_signed (s : Sign) (m : Nat) (e : ℤ) :
    |((s.apply m : ℤ) : ℚ) * 2 ^ e| = m * 2 ^ e := by
  have hpow : (0 : ℚ) < 2 ^ e := by positivity
  cases s with
  | positive =>
    change |((m : ℤ) : ℚ) * 2 ^ e| = _
    rw [Int.cast_natCast]
    exact abs_of_nonneg (by positivity)
  | negative =>
    change |((-(m : ℤ) : ℤ) : ℚ) * 2 ^ e| = _
    rw [Int.cast_neg, Int.cast_natCast, neg_mul, abs_neg]
    exact abs_of_nonneg (by positivity)

/-- A mantissa in full has the last place that its exponent says. -/
theorem Canonical.lastPlace (h : Canonical m e) (s : Sign) :
    LastPlace ((s.apply m : ℤ) * 2 ^ e) e := by
  have hpow : (0 : ℚ) < 2 ^ e := by positivity
  refine ⟨h.least, ?_, ?_⟩
  · rw [abs_signed, zpow_add₀ (by norm_num), mul_comm]
    have hroom : (m : ℚ) < 2 ^ 24 := by exact_mod_cast h.room
    exact mul_lt_mul_of_pos_left hroom hpow
  · refine h.leading.imp id fun hleading => ?_
    rw [abs_signed, zpow_add₀ (by norm_num), mul_comm]
    have hleading' : (2 : ℚ) ^ 23 ≤ m := by exact_mod_cast hleading
    exact mul_le_mul_of_nonneg_right hleading' hpow.le

/-- What a float stands for is rounded already. -/
theorem Denotes.rounded {u : UnpackedFloat} (h : Denotes u q) : Rounded q q := by
  cases h with
  | zero => exact rounded_zero
  | finite s hm h => exact rounded_of_lastPlace (h.lastPlace s)

/-! ## Rounded mantissas -/

/-- The exponent that a mantissa is rounded to is the last place. -/
theorem lastPlace_target (hm : 0 < m) (s : Sign) :
    LastPlace ((s.apply m : ℤ) * 2 ^ e) (Format.binary32.targetExponent (totalExponent m e)) := by
  have hbits : Format.binary32.mantissaBits = 24 := rfl
  have hmin : Format.binary32.minExponent = -149 := rfl
  have hbelow : (2 : ℚ) ^ (m.log2 : ℤ) ≤ m := by
    rw [zpow_natCast]
    exact_mod_cast Nat.log2_self_le (Nat.ne_of_gt hm)
  have habove : (m : ℚ) < 2 ^ (m.log2 + 1 : ℤ) := by
    exact_mod_cast Nat.lt_log2_self (n := m)
  have hpow : (0 : ℚ) < 2 ^ e := by positivity
  unfold Format.targetExponent totalExponent
  rw [hbits, hmin]
  refine ⟨le_max_right _ _, ?_, ?_⟩
  · rw [abs_signed]
    calc (m : ℚ) * 2 ^ e < 2 ^ (m.log2 + 1 : ℤ) * 2 ^ e := mul_lt_mul_of_pos_right habove hpow
      _ = 2 ^ (m.log2 + 1 + e : ℤ) := (zpow_add₀ (by norm_num) _ _).symm
      _ ≤ _ := zpow_le_zpow_right₀ (by norm_num) (by omega)
  · rw [abs_signed]
    by_cases hleast : (m.log2 + 1 + e - (24 : Nat) : ℤ) ≤ -149
    · exact .inl (max_eq_right hleast)
    · refine .inr ?_
      calc (2 : ℚ) ^ (max (m.log2 + 1 + e - (24 : Nat) : ℤ) (-149) + 23)
          = 2 ^ (m.log2 + e : ℤ) := by
            congr 1
            omega
        _ = 2 ^ (m.log2 : ℤ) * 2 ^ e := zpow_add₀ (by norm_num) _ _
        _ ≤ m * 2 ^ e := mul_le_mul_of_nonneg_right hbelow hpow.le

theorem Rounded.apply (s : Sign) (h : Rounded (m * 2 ^ e) (k * 2 ^ t)) :
    Rounded ((s.apply m : ℤ) * 2 ^ e) ((s.apply k : ℤ) * 2 ^ t) := by
  cases s with
  | positive => exact h
  | negative =>
    have hneg := h.neg
    change Rounded ((-(m : ℤ) : ℤ) * 2 ^ e) ((-(k : ℤ) : ℤ) * 2 ^ t)
    push_cast
    rwa [neg_mul, neg_mul]

theorem targetExponent_le (hm : m < 2 ^ 24) (he : -149 ≤ e) :
    Format.binary32.targetExponent (totalExponent m e) ≤ e := by
  have hbits : Format.binary32.mantissaBits = 24 := rfl
  have hmin : Format.binary32.minExponent = -149 := rfl
  have hlog : m.log2 ≤ 23 := by
    by_cases hm' : m = 0
    · rw [hm']
      decide
    · exact Nat.lt_succ_iff.mp ((Nat.log2_lt hm').mpr hm)
  unfold Format.targetExponent totalExponent
  rw [hbits, hmin]
  omega

/-- A mantissa that was rounded is carried over to the next place when it has become too large. -/
theorem shiftToTargetExponent_rounded (hm : m ≤ 2 ^ 24) (ht : -149 ≤ t)
    (hleading : t = -149 ∨ 2 ^ 23 ≤ m) :
    ∃ k u, shiftToTargetExponent .binary32 m t .exact = (⟨k, false, false⟩, u) ∧
      Canonical k u ∧ (k : ℚ) * 2 ^ u = m * 2 ^ t := by
  rcases Nat.lt_or_eq_of_le hm with hlt | rfl
  · have htarget := targetExponent_le hlt ht
    refine ⟨m, t, ?_, ⟨hlt, ht, hleading⟩, rfl⟩
    have hamount : (Format.binary32.targetExponent (totalExponent m t) - t).toNat = 0 := by omega
    unfold shiftToTargetExponent shiftToExponent
    dsimp only
    rw [hamount]
    exact congrArg (Prod.mk _) (Int.add_zero t)
  · have hlog : (2 ^ 24 : Nat).log2 = 24 := by decide
    have hbits : Format.binary32.mantissaBits = 24 := rfl
    have hmin : Format.binary32.minExponent = -149 := rfl
    have hamount :
        (Format.binary32.targetExponent (totalExponent (2 ^ 24) t) - t).toNat = 1 := by
      unfold Format.targetExponent totalExponent
      rw [hbits, hmin, hlog]
      omega
    refine ⟨2 ^ 23, t + 1, ?_, ⟨by norm_num, by omega, .inr le_rfl⟩, ?_⟩
    · unfold shiftToTargetExponent shiftToExponent
      dsimp only
      rw [hamount]
      rfl
    · rw [zpow_add₀ (by norm_num)]
      push_cast
      ring

/-- The bits beyond the last place are taken off, and the ones behind it tell where to round. -/
theorem shiftToTargetExponent_nearest
    (he : e ≤ Format.binary32.targetExponent (totalExponent m e))
    (ht : Format.binary32.targetExponent (totalExponent m e) = t) :
    ∃ em, shiftToTargetExponent .binary32 m e .exact = (em, t) ∧
      Nearest (m * 2 ^ e / 2 ^ t) em.roundedMantissa := by
  rw [ht] at he
  have hexact : Locates (.ofMantissaAndAccuracy m .exact) m := rfl
  have hplaces : (m : ℚ) * 2 ^ e / 2 ^ t = m / 2 ^ (t - e).toNat := by
    have hsplit : (2 : ℚ) ^ t = 2 ^ e * 2 ^ (t - e).toNat := by
      rw [← zpow_natCast, Int.toNat_of_nonneg (by omega), ← zpow_add₀ (by norm_num)]
      congr 1
      omega
    rw [hsplit]
    field_simp
  refine ⟨_, ?_, hplaces ▸ (hexact.shiftRight (t - e).toNat).nearest⟩
  have hexponent : e + ((t - e).toNat : ℤ) = t := by omega
  unfold shiftToTargetExponent shiftToExponent
  dsimp only
  rw [ht, hexponent]

/-- A mantissa with places to give away is rounded to the last one that there is room for. -/
theorem roundWithAccuracy_rounded (s : Sign) (hm : 0 < m)
    (he : e ≤ Format.binary32.targetExponent (totalExponent m e)) :
    ∃ r, Rounded ((s.apply m : ℤ) * 2 ^ e) r ∧
      Denotes (roundWithAccuracy .binary32 s m e .exact) r := by
  obtain ⟨em, hshift, hnearest⟩ := shiftToTargetExponent_nearest he rfl
  have hlast : LastPlace (m * 2 ^ e) (Format.binary32.targetExponent (totalExponent m e)) :=
    lastPlace_target hm .positive
  generalize Format.binary32.targetExponent (totalExponent m e) = t at hshift hnearest hlast
  generalize hn : em.roundedMantissa = n at hnearest
  have hpositive : (0 : ℚ) ≤ m * 2 ^ e := by positivity
  obtain ⟨k, u, hcarry, hcanonical, hvalue⟩ :=
    shiftToTargetExponent_rounded (m := n) (by exact_mod_cast hlast.nearest_le hnearest)
      hlast.least (by exact_mod_cast hlast.le_nearest hpositive hnearest)
  have hrounded : Rounded (m * 2 ^ e) (k * 2 ^ u) := ⟨t, n, hlast, hnearest, hvalue⟩
  refine ⟨(s.apply k : ℤ) * 2 ^ u, hrounded.apply s, ?_⟩
  unfold roundWithAccuracy
  rw [hshift]
  dsimp only
  rw [hn, hcarry]
  dsimp only
  by_cases hzero : k = 0
  · rw [dif_pos hzero]
    subst hzero
    have hnone : (s.apply ((0 : Nat) : ℤ) : ℤ) = 0 := by cases s <;> rfl
    rw [hnone, Int.cast_zero, zero_mul]
    exact .zero s
  · rw [dif_neg hzero]
    exact .finite s _ hcanonical

theorem decreaseExponent_eq (m : Nat) (e t : ℤ) :
    decreaseExponent m e t = (m * 2 ^ (e - t).toNat, e - (e - t).toNat) := by
  unfold decreaseExponent
  dsimp only
  rw [Nat.shiftLeft_eq]

/-- Zeros after a mantissa do not change the number. -/
theorem signed_mul_pow (s : Sign) (m a : Nat) (e : ℤ) :
    ((s.apply ((m * 2 ^ a : Nat) : ℤ) : ℤ) : ℚ) * 2 ^ (e - a : ℤ) =
      (s.apply m : ℤ) * 2 ^ e := by
  have hpow : ((2 ^ a : Nat) : ℚ) * 2 ^ (e - a : ℤ) = 2 ^ e := by
    rw [Nat.cast_pow, Nat.cast_ofNat, ← zpow_natCast, ← zpow_add₀ (by norm_num)]
    congr 1
    omega
  rw [← hpow]
  cases s with
  | positive =>
    change (((m * 2 ^ a : Nat) : ℤ) : ℚ) * _ = ((m : ℤ) : ℚ) * _
    push_cast
    ring
  | negative =>
    change ((-((m * 2 ^ a : Nat) : ℤ) : ℤ) : ℚ) * _ = ((-(m : ℤ) : ℤ) : ℚ) * _
    push_cast
    ring

theorem log2_mul_pow (hm : 0 < m) (a : Nat) : (m * 2 ^ a).log2 = m.log2 + a := by
  rw [Nat.log2_eq_iff (Nat.ne_of_gt (Nat.mul_pos hm (Nat.two_pow_pos a)))]
  constructor
  · rw [Nat.pow_add]
    exact Nat.mul_le_mul_right _ (Nat.log2_self_le (Nat.ne_of_gt hm))
  · rw [Nat.add_right_comm, Nat.pow_add]
    exact Nat.mul_lt_mul_of_pos_right Nat.lt_log2_self (Nat.two_pow_pos a)

/-- A mantissa is brought to the last place, in either direction. -/
theorem round_rounded (s : Sign) (hm : 0 < m) (e : ℤ) :
    ∃ r, Rounded ((s.apply m : ℤ) * 2 ^ e) r ∧
      Denotes (UnpackedFloat.round .binary32 s m e) r := by
  unfold UnpackedFloat.round
  dsimp only
  rw [decreaseExponent_eq]
  dsimp only
  generalize ht : Format.binary32.targetExponent (totalExponent m e) = t
  have htarget : Format.binary32.targetExponent
      (totalExponent (m * 2 ^ (e - t).toNat) (e - (e - t).toNat)) = t := by
    rw [← ht]
    unfold totalExponent
    rw [log2_mul_pow hm]
    congr 1
    omega
  have hrounded := roundWithAccuracy_rounded s (Nat.mul_pos hm (Nat.two_pow_pos (e - t).toNat))
    (e := e - (e - t).toNat) (by omega)
  rwa [signed_mul_pow] at hrounded

/-- A whole number times a power of two is rounded, whichever sign it has. -/
theorem normalize_rounded (n e : ℤ) (s : Sign) :
    ∃ r, Rounded (n * 2 ^ e) r ∧ Denotes (UnpackedFloat.normalize .binary32 n e s) r := by
  unfold UnpackedFloat.normalize
  rcases lt_trichotomy n 0 with hn | rfl | hn
  · have hvalue : Sign.negative.apply ((-n).toNat : ℤ) = n := by
      change -((-n).toNat : ℤ) = n
      omega
    have hrounded := round_rounded .negative (m := (-n).toNat) (by omega) e
    rw [hvalue] at hrounded
    rwa [Int.compare_eq_lt.mpr hn]
  · refine ⟨0, ?_, .zero s⟩
    rw [Int.cast_zero, zero_mul]
    exact rounded_zero
  · have hvalue : Sign.positive.apply (n.toNat : ℤ) = n := by
      change (n.toNat : ℤ) = n
      omega
    have hrounded := round_rounded .positive (m := n.toNat) (by omega) e
    rw [hvalue] at hrounded
    rwa [Int.compare_eq_gt.mpr hn]

/-! ## Sums, differences and products -/

/-- The mantissas of two numbers are brought to one exponent. -/
theorem signed_decrease (s : Sign) (m : Nat) (e t : ℤ) (ht : t ≤ e) :
    ((s.apply ((decreaseExponent m e t).1 : ℤ) : ℤ) : ℚ) * 2 ^ t =
      (s.apply m : ℤ) * 2 ^ e := by
  have hexponent : e - ((e - t).toNat : ℤ) = t := by omega
  rw [decreaseExponent_eq]
  have hvalue := signed_mul_pow s m (e - t).toNat e
  rwa [hexponent] at hvalue

theorem apply_neg (s : Sign) (n : ℤ) : (-s).apply n = -s.apply n := by
  cases s with
  | positive => rfl
  | negative => exact (Int.neg_neg n).symm

theorem apply_mul (s s' : Sign) (n n' : ℤ) :
    (s * s').apply (n * n') = s.apply n * s'.apply n' := by
  cases s <;> cases s'
  · exact (Int.neg_mul_neg n n').symm
  · exact (Int.neg_mul n n').symm
  · exact (Int.mul_neg n n').symm
  · rfl

theorem Denotes.neg {u : UnpackedFloat} (h : Denotes u q) :
    Denotes (UnpackedFloat.neg u) (-q) := by
  cases h with
  | zero s =>
    rw [neg_zero]
    exact .zero (-s)
  | finite s hm h =>
    have hneg := Denotes.finite (-s) hm h
    rwa [apply_neg, Int.cast_neg, neg_mul] at hneg

theorem add_rounded {a b : UnpackedFloat} (ha : Denotes a p) (hb : Denotes b q) :
    ∃ r, Rounded (p + q) r ∧ Denotes (UnpackedFloat.add .binary32 a b) r := by
  have hp := ha.rounded
  have hq := hb.rounded
  cases ha with
  | zero s =>
    rw [zero_add]
    cases hb with
    | zero s' =>
      refine ⟨0, hq, ?_⟩
      unfold UnpackedFloat.add
      dsimp only
      split
      · exact .zero s
      · exact .zero _
    | finite s' hm' h' => exact ⟨_, hq, .finite s' hm' h'⟩
  | @finite s m e hm h =>
    cases hb with
    | zero s' =>
      rw [add_zero]
      exact ⟨_, hp, .finite s hm h⟩
    | @finite s' m' e' hm' h' =>
      have hsum := normalize_rounded (s.apply (decreaseExponent m e (min e e')).1 +
        s'.apply (decreaseExponent m' e' (min e e')).1) (min e e') .positive
      rwa [Int.cast_add, add_mul, signed_decrease s m e _ (min_le_left _ _),
        signed_decrease s' m' e' _ (min_le_right _ _)] at hsum

theorem sub_eq_add {a b : UnpackedFloat} (ha : Denotes a p) (hb : Denotes b q) :
    UnpackedFloat.sub .binary32 a b = UnpackedFloat.add .binary32 a (UnpackedFloat.neg b) := by
  cases ha with
  | zero => cases hb <;> rfl
  | finite s hm h =>
    cases hb with
    | zero => rfl
    | finite s' hm' h' =>
      unfold UnpackedFloat.sub UnpackedFloat.add UnpackedFloat.neg
      dsimp only
      rw [apply_neg, Int.sub_eq_add_neg]

theorem sub_rounded {a b : UnpackedFloat} (ha : Denotes a p) (hb : Denotes b q) :
    ∃ r, Rounded (p - q) r ∧ Denotes (UnpackedFloat.sub .binary32 a b) r := by
  rw [sub_eq_add ha hb, sub_eq_add_neg]
  exact add_rounded ha hb.neg

/-- A product has more places than it keeps, or it is too small for them. -/
theorem mul_exponent_le {m' : Nat} {e' : ℤ} (hm : 0 < m) (hm' : 0 < m') (h : Canonical m e)
    (h' : Canonical m' e') :
    e + e' ≤ Format.binary32.targetExponent (totalExponent (m * m') (e + e')) := by
  have hbits : Format.binary32.mantissaBits = 24 := rfl
  have hmin : Format.binary32.minExponent = -149 := rfl
  have hleast := h.least
  have hleast' := h'.least
  unfold Format.targetExponent totalExponent
  rw [hbits, hmin]
  by_cases hlarge : 2 ^ 23 ≤ m * m'
  · have hlog := (Nat.le_log2 (Nat.ne_of_gt (Nat.mul_pos hm hm'))).mpr hlarge
    omega
  · have he := h.leading.resolve_right fun hm₁ =>
      hlarge (Nat.le_trans hm₁ (Nat.le_mul_of_pos_right m hm'))
    have he' := h'.leading.resolve_right fun hm₁ =>
      hlarge (Nat.le_trans hm₁ (Nat.le_mul_of_pos_left m' hm))
    omega

theorem mul_rounded {a b : UnpackedFloat} (ha : Denotes a p) (hb : Denotes b q) :
    ∃ r, Rounded (p * q) r ∧ Denotes (UnpackedFloat.mul .binary32 a b) r := by
  cases ha with
  | zero s =>
    rw [zero_mul]
    cases hb with
    | zero s' => exact ⟨0, rounded_zero, .zero (s * s')⟩
    | finite s' => exact ⟨0, rounded_zero, .zero (s * s')⟩
  | @finite s m e hm h =>
    cases hb with
    | zero s' =>
      rw [mul_zero]
      exact ⟨0, rounded_zero, .zero (s * s')⟩
    | @finite s' m' e' hm' h' =>
      have hproduct := roundWithAccuracy_rounded (s * s') (Nat.mul_pos hm hm')
        (mul_exponent_le hm hm' h h')
      have hvalue : (((s * s').apply ((m * m' : Nat) : ℤ) : ℤ) : ℚ) * 2 ^ (e + e') =
          (s.apply m : ℤ) * 2 ^ e * ((s'.apply m' : ℤ) * 2 ^ e') := by
        rw [Int.natCast_mul, apply_mul, zpow_add₀ (by norm_num)]
        push_cast
        ring
      rwa [hvalue] at hproduct

/-! ## Order -/

/-- Of two mantissas in full, the one with the larger exponent is the larger number. -/
theorem Canonical.lt_of_exponent_lt {m' : Nat} {e' : ℤ} (h : Canonical m e) (h' : Canonical m' e')
    (he : e < e') : (m : ℚ) * 2 ^ e < m' * 2 ^ e' := by
  have hroom : (m : ℚ) < 2 ^ 24 := by exact_mod_cast h.room
  have hleading : (2 : ℚ) ^ 23 ≤ m' := by
    exact_mod_cast h'.leading.resolve_left (by have := h.least; omega)
  calc (m : ℚ) * 2 ^ e < 2 ^ 24 * 2 ^ e := mul_lt_mul_of_pos_right hroom (by positivity)
    _ = 2 ^ 23 * 2 ^ (e + 1) := by rw [zpow_add₀ (by norm_num)]; norm_num; ring
    _ ≤ 2 ^ 23 * 2 ^ e' :=
      mul_le_mul_of_nonneg_left (zpow_le_zpow_right₀ (by norm_num) (by omega)) (by positivity)
    _ ≤ m' * 2 ^ e' := mul_le_mul_of_nonneg_right hleading (by positivity)

/-- Numbers of one sign are compared by their exponents first, and by their mantissas then. -/
theorem Canonical.compare_eq {m' : Nat} {e' : ℤ} (h : Canonical m e) (h' : Canonical m' e') :
    (compare e e').then (compare m m') = compare ((m : ℚ) * 2 ^ e) (m' * 2 ^ e') := by
  rcases lt_trichotomy e e' with he | rfl | he
  · rw [Int.compare_eq_lt.mpr he, compare_lt_iff_lt.mpr (h.lt_of_exponent_lt h' he)]
    rfl
  · have hpow : (0 : ℚ) < 2 ^ e := by positivity
    rw [Int.compare_eq_eq.mpr rfl]
    change compare m m' = _
    rcases lt_trichotomy m m' with hm | rfl | hm
    · have hlt : (m : ℚ) * 2 ^ e < m' * 2 ^ e :=
        mul_lt_mul_of_pos_right (by exact_mod_cast hm) hpow
      rw [compare_lt_iff_lt.mpr hm, compare_lt_iff_lt.mpr hlt]
    · rw [compare_eq_iff_eq.mpr rfl, compare_eq_iff_eq.mpr rfl]
    · have hgt : (m' : ℚ) * 2 ^ e < m * 2 ^ e :=
        mul_lt_mul_of_pos_right (by exact_mod_cast hm) hpow
      rw [compare_gt_iff_gt.mpr hm, compare_gt_iff_gt.mpr hgt]
  · rw [Int.compare_eq_gt.mpr he, compare_gt_iff_gt.mpr (h'.lt_of_exponent_lt h he)]
    rfl

theorem compare_neg_neg (x y : ℚ) : compare (-x) (-y) = (compare x y).swap := by
  rcases lt_trichotomy x y with hxy | rfl | hxy
  · rw [compare_lt_iff_lt.mpr hxy, compare_gt_iff_gt.mpr (neg_lt_neg hxy)]
    rfl
  · rw [compare_eq_iff_eq.mpr rfl, compare_eq_iff_eq.mpr rfl]
    rfl
  · rw [compare_gt_iff_gt.mpr hxy, compare_lt_iff_lt.mpr (neg_lt_neg hxy)]
    rfl

theorem signed_positive (hm : 0 < m) (e : ℤ) :
    (0 : ℚ) < (Sign.positive.apply m : ℤ) * 2 ^ e := by
  change (0 : ℚ) < ((m : ℤ) : ℚ) * 2 ^ e
  rw [Int.cast_natCast]
  have hm' : (0 : ℚ) < m := by exact_mod_cast hm
  positivity

theorem signed_negative (m : Nat) (e : ℤ) :
    ((Sign.negative.apply m : ℤ) : ℚ) * 2 ^ e = -(m * 2 ^ e) := by
  change ((-(m : ℤ) : ℤ) : ℚ) * 2 ^ e = _
  push_cast
  exact neg_mul _ _

/-- Floats are in the order of the numbers that they stand for. -/
theorem Denotes.compare_eq {a b : UnpackedFloat} (ha : Denotes a p) (hb : Denotes b q) :
    UnpackedFloat.compare a b = some (compare p q) := by
  cases ha with
  | zero s =>
    cases hb with
    | zero s' => exact congrArg some (compare_eq_iff_eq.mpr rfl).symm
    | @finite s' m' e' hm' h' =>
      have hpos := signed_positive hm' e'
      cases s' with
      | positive => exact congrArg some (compare_lt_iff_lt.mpr hpos).symm
      | negative =>
        rw [signed_negative]
        exact congrArg some (compare_gt_iff_gt.mpr (neg_lt_zero.mpr hpos)).symm
  | @finite s m e hm h =>
    have hpos := signed_positive hm e
    cases hb with
    | zero s' =>
      cases s with
      | positive => exact congrArg some (compare_gt_iff_gt.mpr hpos).symm
      | negative =>
        rw [signed_negative]
        exact congrArg some (compare_lt_iff_lt.mpr (neg_lt_zero.mpr hpos)).symm
    | @finite s' m' e' hm' h' =>
      have hpos' := signed_positive hm' e'
      cases s <;> cases s'
      · rw [signed_negative, signed_negative, compare_neg_neg, ← h.compare_eq h']
        rfl
      · rw [signed_negative]
        exact congrArg some
          (compare_lt_iff_lt.mpr (lt_trans (neg_lt_zero.mpr hpos) hpos')).symm
      · rw [signed_negative]
        exact congrArg some
          (compare_gt_iff_gt.mpr (lt_trans (neg_lt_zero.mpr hpos') hpos)).symm
      · exact congrArg some (h.compare_eq h')

/-- Only zero is written in two ways. -/
theorem Denotes.eq_of_ne_zero {a b : UnpackedFloat} (ha : Denotes a p) (hb : Denotes b q)
    (hpq : p = q) (hq : q ≠ 0) : a = b := by
  have hcompare := ha.compare_eq hb
  rw [compare_eq_iff_eq.mpr hpq] at hcompare
  cases ha with
  | zero => exact absurd hpq.symm hq
  | @finite s m e hm h =>
    cases hb with
    | zero => exact absurd rfl hq
    | @finite s' m' e' hm' h' =>
      have same : (compare e e').then (compare m m') = .eq →
          UnpackedFloat.finite s m e hm = .finite s m' e' hm' := by
        intro heq
        rw [Ordering.then_eq_eq, Int.compare_eq_eq, Nat.compare_eq_eq] at heq
        obtain ⟨rfl, rfl⟩ := heq
        rfl
      cases s <;> cases s'
      · exact same (Ordering.swap_eq_eq.mp (Option.some_inj.mp hcompare))
      · cases hcompare
      · cases hcompare
      · exact same (Option.some_inj.mp hcompare)

end PictureInPicture.Single
