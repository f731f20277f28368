-- Rounding in single precision. A number is rounded to the nearest multiple of the last place that
-- it has room for, and to the even one of two that are equally near. Rounding keeps the order, and
-- a number that has room for all its places stays what it is.
import Mathlib.Algebra.Order.Field.Power
import Mathlib.Algebra.Order.Field.Rat
import Mathlib.Tactic.FieldSimp
import Mathlib.Tactic.Linarith
import Mathlib.Tactic.NormNum
import Mathlib.Tactic.Positivity
import Mathlib.Tactic.Ring
import PictureInPicture.Proofs.Scalar.Counts

namespace PictureInPicture.Single

open Float.Model (Format totalExponent UnpackedFloat)
open Float.Model.UnpackedFloat

variable {x y r s : ℚ} {n k t u : ℤ}

/-! ## The nearest whole number -/

/-- No whole number is nearer to `x` than `n`. An odd one is strictly nearer than all others. -/
def Nearest (x : ℚ) (n : ℤ) : Prop := |x - n| ≤ 1 / 2 ∧ (|x - n| = 1 / 2 → Even n)

theorem nearest_self (n : ℤ) : Nearest n n := by
  unfold Nearest
  rw [sub_self, abs_zero]
  norm_num

theorem nearest_of_lt (h : |x - n| < 1 / 2) : Nearest x n :=
  ⟨le_of_lt h, fun htie => absurd htie (ne_of_lt h)⟩

theorem Nearest.neg (h : Nearest x n) : Nearest (-x) (-n) := by
  have habs : |-x - (-n : ℤ)| = |x - n| := by
    rw [← abs_neg]
    push_cast
    ring_nf
  unfold Nearest
  rw [habs, even_neg]
  exact h

theorem Nearest.mono (h : Nearest x n) (h' : Nearest y k) (hxy : x ≤ y) : n ≤ k := by
  by_contra hlt
  have hstep : (k : ℚ) + 1 ≤ n := by exact_mod_cast (by omega : k + 1 ≤ n)
  obtain ⟨hlow, _⟩ := abs_le.mp h.1
  obtain ⟨_, hhigh⟩ := abs_le.mp h'.1
  -- Both lie halfway between the same two numbers, so both go to the even one.
  have hn : (n : ℚ) = k + 1 := by linarith
  have htie : x - n = -(1 / 2) := by linarith
  have htie' : y - k = 1 / 2 := by linarith
  have heven : Even n := h.2 (by rw [htie]; norm_num)
  have heven' : Even k := h'.2 (by rw [htie']; norm_num)
  have hnk : n = k + 1 := by exact_mod_cast hn
  rw [hnk, Int.even_add_one] at heven
  exact heven heven'

/-! ## Rounded numbers -/

/-- The last place of `x` has the value `2 ^ t`: the 24th one, unless the smallest comes before. -/
structure LastPlace (x : ℚ) (t : ℤ) : Prop where
  least : -149 ≤ t
  room : |x| < 2 ^ (t + 24)
  leading : t = -149 ∨ 2 ^ (t + 23) ≤ |x|

/-- What `x` becomes in single precision, as long as it does not grow out of it. -/
def Rounded (x r : ℚ) : Prop := ∃ t n, LastPlace x t ∧ Nearest (x / 2 ^ t) n ∧ r = n * 2 ^ t

theorem LastPlace.neg (h : LastPlace x t) : LastPlace (-x) t := by
  refine ⟨h.least, ?_, ?_⟩
  · rw [abs_neg]
    exact h.room
  · rw [abs_neg]
    exact h.leading

/-- A larger number has its last place no further down. -/
theorem LastPlace.mono (h : LastPlace x t) (h' : LastPlace y u) (hxy : |x| ≤ |y|) : t ≤ u := by
  rcases h.leading with rfl | hleading
  · exact h'.least
  · have hlt : (2 : ℚ) ^ (t + 23) < 2 ^ (u + 24) :=
      lt_of_le_of_lt (le_trans hleading hxy) h'.room
    rw [zpow_lt_zpow_iff_right₀ (by norm_num)] at hlt
    omega

/-- Rounded to the last place, a number has no more places than before, or is the next power. -/
theorem LastPlace.nearest_le (h : LastPlace x t) (hn : Nearest (x / 2 ^ t) n) : n ≤ 2 ^ 24 := by
  have hbelow : x / 2 ^ t ≤ ((2 ^ 24 : ℤ) : ℚ) := by
    rw [div_le_iff₀ (by positivity)]
    have hroom := lt_of_le_of_lt (le_abs_self x) h.room
    rw [zpow_add₀ (by norm_num)] at hroom
    norm_num at hroom ⊢
    linarith
  exact hn.mono (nearest_self _) hbelow

/-- Rounded to the last place, a number keeps its first place. -/
theorem LastPlace.le_nearest (h : LastPlace x t) (hx : 0 ≤ x) (hn : Nearest (x / 2 ^ t) n) :
    t = -149 ∨ 2 ^ 23 ≤ n := by
  refine h.leading.imp id fun hleading => ?_
  have habove : ((2 ^ 23 : ℤ) : ℚ) ≤ x / 2 ^ t := by
    rw [abs_of_nonneg hx, zpow_add₀ (by norm_num)] at hleading
    rw [le_div_iff₀ (by positivity)]
    norm_num at hleading ⊢
    linarith
  exact (nearest_self _).mono hn habove

theorem Rounded.neg (h : Rounded x r) : Rounded (-x) (-r) := by
  obtain ⟨t, n, ht, hn, rfl⟩ := h
  refine ⟨t, -n, ht.neg, ?_, ?_⟩
  · rw [neg_div]
    exact hn.neg
  · push_cast
    ring

/-- A number keeps all its places when it has no more than there is room for. -/
theorem rounded_of_lastPlace (h : LastPlace (n * 2 ^ t) t) : Rounded (n * 2 ^ t) (n * 2 ^ t) := by
  refine ⟨t, n, h, ?_, rfl⟩
  rw [mul_div_assoc, div_self (by positivity), mul_one]
  exact nearest_self n

theorem rounded_zero : Rounded 0 0 := by
  refine ⟨-149, 0, ⟨le_refl _, ?_, .inl rfl⟩, ?_, ?_⟩
  · rw [abs_zero]
    positivity
  · rw [zero_div]
    exact nearest_self 0
  · norm_num

theorem rounded_two_pow (hk : -126 ≤ k) : Rounded (2 ^ k) (2 ^ k) := by
  have hplaces : (2 : ℚ) ^ k = (2 ^ 23 : ℤ) * 2 ^ (k - 23) := by
    rw [Int.cast_pow, Int.cast_ofNat, ← zpow_natCast, ← zpow_add₀ (by norm_num)]
    congr 1
    omega
  rw [hplaces]
  apply rounded_of_lastPlace
  rw [← hplaces]
  have habs : |(2 : ℚ) ^ k| = 2 ^ k := abs_of_pos (by positivity)
  refine ⟨by omega, ?_, .inr ?_⟩
  · rw [habs, zpow_lt_zpow_iff_right₀ (by norm_num)]
    omega
  · rw [habs, zpow_le_zpow_iff_right₀ (by norm_num)]
    omega

theorem Rounded.nonneg (h : Rounded x r) (hx : 0 ≤ x) : 0 ≤ r := by
  obtain ⟨t, n, _, hn, rfl⟩ := h
  have hzero : Nearest (0 : ℚ) 0 := nearest_self 0
  have hn' : 0 ≤ n := hzero.mono hn (by positivity)
  have hcast : (0 : ℚ) ≤ n := by exact_mod_cast hn'
  positivity

/-- Numbers of one sign: a larger one is not rounded to a smaller one. -/
theorem Rounded.mono_of_nonneg (h : Rounded x r) (h' : Rounded y s) (hx : 0 ≤ x) (hxy : x ≤ y) :
    r ≤ s := by
  obtain ⟨t, n, ht, hn, rfl⟩ := h
  obtain ⟨u, k, hu, hk, rfl⟩ := h'
  have hy : 0 ≤ y := le_trans hx hxy
  have htu : t ≤ u := ht.mono hu (by rwa [abs_of_nonneg hx, abs_of_nonneg hy])
  rcases eq_or_lt_of_le htu with rfl | hlt
  · have hnk : (n : ℚ) ≤ k := by
      exact_mod_cast hn.mono hk (div_le_div_of_nonneg_right hxy (by positivity))
    exact mul_le_mul_of_nonneg_right hnk (by positivity)
  · -- A power of two lies between them, and neither is rounded past it.
    have hn' : (n : ℚ) ≤ 2 ^ 24 := by exact_mod_cast ht.nearest_le hn
    have hk' : (2 : ℚ) ^ 23 ≤ k := by
      exact_mod_cast (hu.le_nearest hy hk).resolve_left (by have := ht.least; omega)
    calc (n : ℚ) * 2 ^ t ≤ 2 ^ 24 * 2 ^ t := mul_le_mul_of_nonneg_right hn' (by positivity)
      _ = 2 ^ (t + 24) := by rw [zpow_add₀ (by norm_num)]; norm_num; ring
      _ ≤ 2 ^ (u + 23) := by
        rw [zpow_le_zpow_iff_right₀ (by norm_num)]
        omega
      _ = 2 ^ 23 * 2 ^ u := by rw [zpow_add₀ (by norm_num)]; norm_num; ring
      _ ≤ k * 2 ^ u := mul_le_mul_of_nonneg_right hk' (by positivity)

/-- Rounding keeps the order. -/
theorem Rounded.mono (h : Rounded x r) (h' : Rounded y s) (hxy : x ≤ y) : r ≤ s := by
  rcases le_or_gt 0 x with hx | hx
  · exact h.mono_of_nonneg h' hx hxy
  · rcases le_or_gt 0 y with hy | hy
    · have hr := h.neg.nonneg (by linarith)
      have hs := h'.nonneg hy
      linarith
    · have hneg := h'.neg.mono_of_nonneg h.neg (by linarith) (by linarith)
      linarith

theorem Rounded.unique (h : Rounded x r) (h' : Rounded x s) : r = s :=
  le_antisymm (h.mono h' (le_refl x)) (h'.mono h (le_refl x))

/-- Rounding takes no number past a power of two. -/
theorem Rounded.within {k : Nat} (h : Rounded x r) (hx : |x| ≤ 2 ^ k) : |r| ≤ 2 ^ k := by
  have htop : Rounded (2 ^ k : ℚ) (2 ^ k) := by
    rw [← zpow_natCast]
    exact rounded_two_pow (by omega)
  rw [abs_le'] at hx ⊢
  exact ⟨h.mono htop hx.1, h.neg.mono htop hx.2⟩

/-- Rounding moves a number by half of its last place at most. -/
theorem Rounded.error_le (h : Rounded x r) (ht : LastPlace x t) : |r - x| ≤ 2 ^ t / 2 := by
  obtain ⟨u, n, hu, hn, rfl⟩ := h
  obtain rfl : u = t := le_antisymm (hu.mono ht (le_refl _)) (ht.mono hu (le_refl _))
  have hplaces : (n : ℚ) * 2 ^ u - x = -((x / 2 ^ u - n) * 2 ^ u) := by
    field_simp
    ring
  rw [hplaces, abs_neg, abs_mul, abs_of_pos (by positivity : (0 : ℚ) < 2 ^ u)]
  calc |x / 2 ^ u - n| * 2 ^ u ≤ 1 / 2 * 2 ^ u := mul_le_mul_of_nonneg_right hn.1 (by positivity)
    _ = 2 ^ u / 2 := by ring

end PictureInPicture.Single
