-- Whole parts. The whole part of a number and the least count that is not below it are those of the
-- rational that it stands for, over exact rationals and in single precision. A count of 32 bits is
-- rounded to the nearest multiple of a power of two, which is 1 up to 2 ^ 24.
import Mathlib.Algebra.Order.Floor.Semifield
import Mathlib.Data.Rat.Floor
import PictureInPicture.Proofs.Scalar.Levels

namespace PictureInPicture

/-! ## Exact rationals -/

/-- The least count that is not below a number is its whole part, or the count after that. -/
theorem ceil_eq_of_floor (q : ℚ) : (if (⌊q⌋₊ : ℚ) < q then ⌊q⌋₊ + 1 else ⌊q⌋₊) = ⌈q⌉₊ := by
  split
  · rename_i habove
    symm
    rw [Nat.ceil_eq_iff (Nat.succ_ne_zero _)]
    refine ⟨habove, ?_⟩
    rw [Nat.cast_succ]
    exact le_of_lt (Nat.lt_floor_add_one q)
  · rename_i hbelow
    exact le_antisymm (Nat.floor_le_ceil q) (Nat.ceil_le.mpr (not_lt.mp hbelow))

namespace Scalar

theorem whole_rat (q : ℚ) : whole q = ⌊q⌋₊ := rfl

theorem ceil_rat (q : ℚ) : ceil q = ⌈q⌉₊ := ceil_eq_of_floor q

end Scalar

/-! ## Single precision -/

namespace Single

open Float.Model (Format totalExponent UnpackedFloat)
open Float.Model.UnpackedFloat

variable {x : Float32} {p q r : ℚ} {m n : Nat} {e t : ℤ}

theorem floor_mantissa (m : Nat) (e : ℤ) : ⌊(m : ℚ) * 2 ^ e⌋₊ = truncate m e := by
  have hsplit : (m : ℚ) * 2 ^ e = ((m * 2 ^ e.toNat : Nat) : ℚ) / (2 ^ (-e).toNat : Nat) := by
    have hpow : (2 : ℚ) ^ e = 2 ^ (e.toNat : ℤ) / 2 ^ ((-e).toNat : ℤ) := by
      rw [← zpow_sub₀ (by norm_num)]
      congr 1
      omega
    rw [hpow]
    push_cast
    rw [zpow_natCast, zpow_natCast, mul_div_assoc]
  rw [hsplit, Nat.floor_div_eq_div]
  rfl

/-- The whole part of a number that fits a word of 64 bits. -/
theorem Reads.whole (h : Reads x q) (hq : q < 2 ^ 64) : Scalar.whole x = ⌊q⌋₊ := by
  change (UInt64.ofNatClamp (toInt 0 (UInt64.size - 1) x.toModel.unpack).toNat).toNat = _
  unfold Reads at h
  generalize x.toModel.unpack = u at h
  cases h with
  | zero =>
    rw [Nat.floor_zero]
    rfl
  | @finite s m e hm h =>
    change (UInt64.ofNatClamp (roundToInt s m e).toNat).toNat = _
    rw [roundToInt_eq]
    cases s with
    | negative =>
      rw [signed_negative, Nat.floor_of_nonpos (by simp only [neg_nonpos]; positivity)]
      have hnone : (-(truncate m e : ℤ)).toNat = 0 := by omega
      change (UInt64.ofNatClamp (-(truncate m e : ℤ)).toNat).toNat = 0
      rw [hnone]
      rfl
    | positive =>
      change (UInt64.ofNatClamp (truncate m e)).toNat = ⌊((m : ℤ) : ℚ) * 2 ^ e⌋₊
      have hvalue : ((m : ℤ) : ℚ) * 2 ^ e < 2 ^ 64 := hq
      rw [Int.cast_natCast] at hvalue ⊢
      rw [floor_mantissa]
      apply toNat_ofNatClamp
      rw [← floor_mantissa, Nat.floor_lt (by positivity)]
      exact_mod_cast hvalue

/-! ## Counts in single precision -/

theorem lastPlace_short (hm : 0 < m) (he : -126 ≤ e) :
    LastPlace ((m : ℚ) * 2 ^ e) (m.log2 - 23 + e) := by
  have hlast : LastPlace ((m : ℚ) * 2 ^ e) _ := lastPlace_target hm .positive
  have hplace : Format.binary32.targetExponent (totalExponent m e) = m.log2 - 23 + e := by
    have hbits : Format.binary32.mantissaBits = 24 := rfl
    have hmin : Format.binary32.minExponent = -149 := rfl
    unfold Format.targetExponent totalExponent
    omega
  rwa [hplace] at hlast

/-- A mantissa of at most 24 bits keeps all its places. -/
theorem rounded_short (hm : m < 2 ^ 24) (he : -126 ≤ e) :
    Rounded ((m : ℚ) * 2 ^ e) (m * 2 ^ e) := by
  rcases Nat.eq_zero_or_pos m with rfl | hpos
  · rw [Nat.cast_zero, zero_mul]
    exact rounded_zero
  · have hlog := log2_count hpos hm
    have hlast := lastPlace_short hpos he
    have hplaces : (m : ℚ) * 2 ^ e =
        ((m * 2 ^ (23 - m.log2) : Nat) : ℤ) * 2 ^ (m.log2 - 23 + e : ℤ) := by
      have hpow : (2 : ℚ) ^ e = 2 ^ ((23 - m.log2 : Nat) : ℤ) * 2 ^ (m.log2 - 23 + e : ℤ) := by
        rw [← zpow_add₀ (by norm_num)]
        congr 1
        omega
      rw [hpow, zpow_natCast]
      push_cast
      ring
    rw [hplaces] at hlast ⊢
    exact rounded_of_lastPlace hlast

theorem rounded_count_of_lt (hn : n < 2 ^ 24) : Rounded (n : ℚ) n := by
  have hshort := rounded_short (e := 0) hn (by decide)
  rwa [zpow_zero, mul_one] at hshort

/-- A quotient with a rest: the nearest quotient to both together, and the even one of two that are
equally near. -/
def nearestPart (quotient rest place : Nat) : Nat :=
  if place < 2 * rest ∨ place = 2 * rest ∧ quotient % 2 = 1 then quotient + 1 else quotient

theorem nearest_part {rest place : Nat} (quotient : Nat) (hrest : rest < place) :
    Nearest (quotient + (rest : ℚ) / place) (nearestPart quotient rest place : Nat) := by
  have hpos : (0 : ℚ) < place := by exact_mod_cast Nat.zero_lt_of_lt hrest
  have hone : (rest : ℚ) / place < 1 := by
    rw [div_lt_one hpos]
    exact_mod_cast hrest
  have hzero : (0 : ℚ) ≤ (rest : ℚ) / place := by positivity
  -- Twice the rest is to the divisor what their quotient is to one half.
  have hhalf : (rest : ℚ) / place < 1 / 2 ↔ 2 * rest < place := by
    rw [div_lt_div_iff₀ hpos (by norm_num), mul_comm, one_mul]
    exact_mod_cast Iff.rfl
  have htie : (rest : ℚ) / place = 1 / 2 ↔ place = 2 * rest := by
    rw [div_eq_div_iff hpos.ne' (by norm_num), one_mul, mul_comm, eq_comm]
    exact_mod_cast Iff.rfl
  generalize (rest : ℚ) / place = part at *
  unfold nearestPart Nearest
  split
  · rename_i hup
    have hle : 1 / 2 ≤ part := not_lt.mp (mt hhalf.mp (by omega))
    have hdist : |(quotient : ℚ) + part - ((quotient + 1 : Nat) : ℤ)| = 1 - part := by
      push_cast
      rw [abs_sub_comm, abs_of_nonneg] <;> linarith
    rw [hdist]
    refine ⟨by linarith, fun heq => ?_⟩
    have hplace := htie.mp (by linarith)
    rw [Int.even_coe_nat, Nat.even_iff]
    omega
  · rename_i hdown
    have hle : part ≤ 1 / 2 := by
      by_contra hlt
      have hlow : ¬ 2 * rest < place := mt hhalf.mpr (by linarith)
      have hne : place ≠ 2 * rest := mt htie.mpr (by linarith)
      omega
    have hdist : |(quotient : ℚ) + part - ((quotient : Nat) : ℤ)| = part := by
      push_cast
      rw [add_sub_cancel_left, abs_of_nonneg hzero]
    rw [hdist]
    refine ⟨hle, fun heq => ?_⟩
    have hplace := htie.mp heq
    rw [Int.even_coe_nat, Nat.even_iff]
    omega

/-- The count that a count becomes: a multiple of a power of two with a quotient of 24 bits. -/
def roundCount (n : Nat) : Nat :=
  let place := 2 ^ (n.log2 - 23)
  nearestPart (n / place) (n % place) place * place

theorem roundCount_of_lt (hn : n < 2 ^ 24) : roundCount n = n := by
  have hlog : n.log2 - 23 = 0 := by
    rcases Nat.eq_zero_or_pos n with rfl | hpos
    · rfl
    · have := log2_count hpos hn
      omega
  unfold roundCount nearestPart
  dsimp only
  rw [hlog, Nat.pow_zero, Nat.mod_one, Nat.div_one, if_neg (by omega), Nat.mul_one]

theorem rounded_count (n : Nat) : Rounded (n : ℚ) (roundCount n) := by
  by_cases hn : n < 2 ^ 24
  · rw [roundCount_of_lt hn]
    exact rounded_count_of_lt hn
  · have hpos : 0 < n := by omega
    have hlog : 24 ≤ n.log2 := (Nat.le_log2 (Nat.ne_of_gt hpos)).mpr (by omega)
    have hlast := lastPlace_short (e := 0) hpos (by decide)
    have hexponent : ((n.log2 : ℤ) - 23 + 0) = ((n.log2 - 23 : Nat) : ℤ) := by omega
    rw [zpow_zero, mul_one, hexponent] at hlast
    generalize hplace : 2 ^ (n.log2 - 23) = place
    have hplace' : (2 : ℚ) ^ ((n.log2 - 23 : Nat) : ℤ) = place := by
      rw [zpow_natCast, ← hplace]
      push_cast
      rfl
    have hpow : 0 < place := hplace ▸ Nat.two_pow_pos _
    have hparts : (n : ℚ) / place = (n / place : Nat) + (n % place : Nat) / place := by
      have hsum : (n : ℚ) = place * (n / place : Nat) + (n % place : Nat) := by
        exact_mod_cast (Nat.div_add_mod n place).symm
      field_simp
      exact hsum
    refine ⟨_, (nearestPart (n / place) (n % place) place : Nat), hlast, ?_, ?_⟩
    · rw [hplace', hparts]
      exact nearest_part _ (Nat.mod_lt n hpow)
    · unfold roundCount
      rw [hplace', hplace]
      push_cast
      rfl

theorem reads_count (hn : n < 2 ^ 64) : Reads (Scalar.ofNat n) (roundCount n) := by
  obtain ⟨r, hr, hdenotes⟩ := normalize_rounded n 0 .positive
  have hword : n.toUInt64.toNat = n := Nat.mod_eq_of_lt hn
  rw [Int.cast_natCast, zpow_zero, mul_one] at hr
  obtain rfl := hr.unique (rounded_count n)
  change Reads ⟨.pack (UnpackedFloat.ofNat .binary32 n.toUInt64.toNat)⟩ _
  rw [hword]
  apply reads_pack hdenotes
  have hle : |(n : ℚ)| ≤ 2 ^ 64 := by
    rw [Nat.abs_cast]
    exact_mod_cast hn.le
  exact le_trans (hr.within hle) (by norm_num)

/-! ## Numbers and counts -/

/-- The whole part of a number is a number. -/
theorem Reads.rounded_floor (h : Reads x q) : Rounded (⌊q⌋₊ : ℚ) ⌊q⌋₊ := by
  unfold Reads at h
  have hrounded := h.rounded
  generalize x.toModel.unpack = u at h
  cases h with
  | zero =>
    rw [Nat.floor_zero]
    exact_mod_cast rounded_zero
  | @finite s m e hm h =>
    cases s with
    | negative =>
      rw [signed_negative, Nat.floor_of_nonpos (by simp only [neg_nonpos]; positivity)]
      exact_mod_cast rounded_zero
    | positive =>
      have hvalue : ((Sign.positive.apply m : ℤ) : ℚ) = m := by
        change ((m : ℤ) : ℚ) = m
        exact Int.cast_natCast m
      rw [hvalue] at hrounded ⊢
      rcases lt_or_ge e 0 with he | he
      · -- Nothing is left of a mantissa of 24 bits but a part of it.
        apply rounded_count_of_lt
        rw [floor_mantissa]
        unfold truncate
        have hup : e.toNat = 0 := by omega
        rw [hup, Nat.pow_zero, Nat.mul_one]
        exact Nat.lt_of_le_of_lt (Nat.div_le_self _ _) h.room
      · have hwhole : (m : ℚ) * 2 ^ e = (m * 2 ^ e.toNat : Nat) := by
          push_cast
          rw [← zpow_natCast, Int.toNat_of_nonneg he]
        rw [hwhole] at hrounded ⊢
        rwa [Nat.floor_natCast]

/-- The least count that is not below a number, if it fits a word of 64 bits. -/
theorem Reads.ceil (h : Reads x q) (hq : q < 2 ^ 64) : Scalar.ceil x = ⌈q⌉₊ := by
  have hfloor : ⌊q⌋₊ < 2 ^ 64 := by
    rw [Nat.floor_lt' (by norm_num)]
    exact_mod_cast hq
  have hcount := reads_count hfloor
  rw [(rounded_count _).unique h.rounded_floor] at hcount
  unfold Scalar.ceil
  dsimp only
  rw [h.whole hq, ← ceil_eq_of_floor]
  exact if_congr (hcount.lt_iff h) rfl rfl

/-- A number is finite, or it has no whole part, or it is above all that are finite. -/
theorem reads_or (x : Float32) :
    (∃ q, Reads x q) ∨ Scalar.ceil x = 0 ∨ ∀ {y q}, Reads y q → y < x := by
  have empty : Scalar.whole x = 0 → ¬ (Scalar.ofNat 0 : Float32) < x → Scalar.ceil x = 0 := by
    intro hwhole hnot
    unfold Scalar.ceil
    dsimp only
    rw [hwhole, if_neg hnot]
  have hwhole : Scalar.whole x = (UInt64.ofNatClamp
      (toInt 0 (UInt64.size - 1) x.toModel.unpack).toNat).toNat := rfl
  cases hunpack : x.toModel.unpack with
  | zero s =>
    refine .inl ⟨0, ?_⟩
    unfold Reads
    rw [hunpack]
    exact .zero s
  | finite s m e hm =>
    refine .inl ⟨(s.apply m : ℤ) * 2 ^ e, ?_⟩
    unfold Reads
    rw [hunpack]
    exact .finite s hm (canonical_unpack hunpack)
  | notANumber =>
    rw [hunpack] at hwhole
    refine .inr (.inl (empty hwhole ?_))
    rw [lt_iff_unpack, hunpack]
    decide
  | infinity s =>
    cases s with
    | negative =>
      rw [hunpack] at hwhole
      refine .inr (.inl (empty hwhole ?_))
      rw [lt_iff_unpack, hunpack]
      decide
    | positive =>
      refine .inr (.inr ?_)
      intro y q hy
      rw [lt_iff_unpack, hunpack]
      unfold Reads at hy
      generalize y.toModel.unpack = u at hy
      cases hy <;> rfl

/-! ## Half less than a count -/

/-- Where half less than a count is rounded to, from below: of the odd counts between 2 ^ 23 and
2 ^ 24 to the even one before, and of no other to less than the count. -/
def withoutHalf (n : Nat) : Nat :=
  if 2 ^ 23 < n ∧ n < 2 ^ 24 ∧ n % 2 = 1 then n - 1 else n

theorem rounded_half_less_small (hn : 0 < n) (hn' : n ≤ 2 ^ 23) :
    Rounded ((n : ℚ) - 1 / 2) (n - 1 / 2) := by
  have hshort := rounded_short (m := 2 * n - 1) (e := -1) (by omega) (by decide)
  have hvalue : ((2 * n - 1 : Nat) : ℚ) * 2 ^ (-1 : ℤ) = n - 1 / 2 := by
    rw [Nat.cast_sub (by omega)]
    push_cast
    rw [zpow_neg_one]
    ring
  rwa [hvalue] at hshort

/-- Half less than a multiple of a place is nearest to that multiple, if the place is more than 1 or
the multiple an even one. -/
theorem nearest_half_less {k : ℤ} (ht : 0 ≤ t) (heven : t = 0 → Even k) :
    Nearest (((k : ℚ) * 2 ^ t - 1 / 2) / 2 ^ t) k := by
  have hpow : (1 : ℚ) ≤ 2 ^ t := one_le_zpow₀ (by norm_num) ht
  have hdist : |((k : ℚ) * 2 ^ t - 1 / 2) / 2 ^ t - k| = 1 / 2 / 2 ^ t := by
    have hsame : ((k : ℚ) * 2 ^ t - 1 / 2) / 2 ^ t - k = -(1 / 2 / 2 ^ t) := by
      field_simp
      ring
    rw [hsame, abs_neg]
    exact abs_of_nonneg (by positivity)
  unfold Nearest
  rw [hdist]
  refine ⟨div_le_self (by norm_num) hpow, fun htie => ?_⟩
  rcases eq_or_lt_of_le ht with rfl | hpos
  · exact heven rfl
  · have hlt : (1 : ℚ) < 2 ^ t := one_lt_zpow₀ (by norm_num) hpos
    have hless : 1 / 2 / 2 ^ t < (1 / 2 : ℚ) := div_lt_self (by norm_num) hlt
    exact absurd htie hless.ne

theorem rounded_half_less_middle (hn : 2 ^ 23 < n) (hn' : n < 2 ^ 24) :
    Rounded ((n : ℚ) - 1 / 2) (withoutHalf n) := by
  have hlow : (2 ^ 23 + 1 : ℚ) ≤ n := by exact_mod_cast hn
  have hhigh : (n : ℚ) < 2 ^ 24 := by exact_mod_cast hn'
  have hlast : LastPlace ((n : ℚ) - 1 / 2) 0 := by
    have habs : |(n : ℚ) - 1 / 2| = n - 1 / 2 := abs_of_nonneg (by linarith)
    have hroom : (2 : ℚ) ^ (0 + 24 : ℤ) = 2 ^ 24 := by norm_num
    have hleading : (2 : ℚ) ^ (0 + 23 : ℤ) = 2 ^ 23 := by norm_num
    refine ⟨by decide, ?_, .inr ?_⟩
    · rw [habs, hroom]
      linarith
    · rw [habs, hleading]
      linarith
  refine ⟨0, (withoutHalf n : Nat), hlast, ?_, ?_⟩
  · unfold withoutHalf
    split
    · -- The count is odd, so the one before it is even and as near.
      have hdist : |(n : ℚ) - 1 / 2 - ((n - 1 : Nat) : ℤ)| = 1 / 2 := by
        rw [Int.cast_natCast, Nat.cast_sub (by omega), abs_of_nonneg] <;> push_cast <;> linarith
      rw [zpow_zero, div_one]
      unfold Nearest
      rw [hdist]
      refine ⟨le_rfl, fun _ => ?_⟩
      rw [Int.even_coe_nat, Nat.even_iff]
      omega
    · have hnearest := nearest_half_less (k := n) le_rfl fun _ => by
        rw [Int.even_coe_nat, Nat.even_iff]
        omega
      rwa [zpow_zero, mul_one, Int.cast_natCast] at hnearest
  · rw [zpow_zero, mul_one, Int.cast_natCast]

theorem rounded_half_less_large (hn : 2 ^ 24 ≤ n) (h : Rounded (n : ℚ) n) :
    Rounded ((n : ℚ) - 1 / 2) n := by
  obtain ⟨t, k, hlast, _, hvalue⟩ := h
  have hone : (1 : ℚ) ≤ n := by exact_mod_cast (by omega : 1 ≤ n)
  have ht : 0 < t := by
    have hlow : (2 : ℚ) ^ (24 : ℤ) ≤ n := by exact_mod_cast hn
    have hlt := lt_of_le_of_lt hlow (lt_of_le_of_lt (le_abs_self _) hlast.room)
    rw [zpow_lt_zpow_iff_right₀ (by norm_num)] at hlt
    omega
  have hleading := hlast.leading.resolve_left (by omega)
  have hroom := hlast.room
  rw [Nat.abs_cast] at hleading hroom
  have habs : |(n : ℚ) - 1 / 2| = n - 1 / 2 := abs_of_nonneg (by linarith)
  rcases eq_or_lt_of_le hleading with htop | habove
  · -- A power of two: what is less than it has one more place.
    have hdouble : (2 : ℚ) ^ (t - 1 + 23) * 2 = n := by
      rw [← zpow_add_one₀ (by norm_num), ← htop]
      congr 1
      ring
    have hsame : (n : ℚ) = ((2 ^ 24 : ℤ) : ℚ) * 2 ^ (t - 1) := by
      rw [← htop, Int.cast_pow, Int.cast_ofNat, ← zpow_natCast, ← zpow_add₀ (by norm_num)]
      congr 1
      push_cast
      ring
    have hexponent : t - 1 + 24 = t + 23 := by ring
    refine ⟨t - 1, 2 ^ 24, ⟨by omega, ?_, .inr ?_⟩, ?_, hsame⟩
    · rw [habs, hexponent, htop]
      linarith
    · rw [habs]
      linarith
    · rw [hsame]
      exact nearest_half_less (by omega) fun _ => by decide
  · have hsplit : (2 : ℚ) ^ (t + 23) = 2 ^ 23 * 2 ^ t := by
      rw [add_comm, zpow_add₀ (by norm_num)]
      rfl
    have hk : (2 ^ 23 + 1 : ℚ) ≤ k := by
      rw [hsplit, hvalue] at habove
      exact_mod_cast lt_of_mul_lt_mul_right habove (by positivity)
    have hpow : (1 : ℚ) ≤ 2 ^ t := one_le_zpow₀ (by norm_num) ht.le
    have hspare : (2 : ℚ) ^ (t + 23) + 2 ^ t ≤ n := by
      rw [hsplit, hvalue, ← add_one_mul]
      exact mul_le_mul_of_nonneg_right hk (by positivity)
    refine ⟨t, k, ⟨hlast.least, ?_, .inr ?_⟩, ?_, hvalue⟩
    · rw [habs]
      linarith
    · rw [habs]
      linarith
    · rw [hvalue]
      exact nearest_half_less ht.le fun h => absurd h (by omega)

/-- The least count that is not below half less than a count. -/
theorem ceil_half_less (h : Rounded (n : ℚ) n) (hp : Rounded ((n : ℚ) - 1 / 2) p) :
    ⌈p⌉₊ = withoutHalf n := by
  rcases Nat.eq_zero_or_pos n with rfl | hpos
  · have hle := hp.mono rounded_zero (by norm_num)
    exact Nat.ceil_eq_zero.mpr hle
  · by_cases hsmall : n ≤ 2 ^ 23
    · obtain rfl := hp.unique (rounded_half_less_small hpos hsmall)
      unfold withoutHalf
      rw [if_neg (by omega), Nat.ceil_eq_iff (by omega), Nat.cast_sub (by omega)]
      constructor <;> push_cast <;> linarith
    · by_cases hmiddle : n < 2 ^ 24
      · obtain rfl := hp.unique (rounded_half_less_middle (by omega) hmiddle)
        exact Nat.ceil_natCast _
      · obtain rfl := hp.unique (rounded_half_less_large (by omega) h)
        unfold withoutHalf
        rw [if_neg (by omega)]
        exact Nat.ceil_natCast _

end Single

end PictureInPicture
