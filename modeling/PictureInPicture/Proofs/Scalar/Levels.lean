-- Levels of color. A level lies between 0 and 1, and the levels of two pictures blend to a level,
-- however the steps between are rounded. Over an opaque color every color is opaque: the two
-- opacities come to 1 exactly.
import PictureInPicture.Proofs.Scalar.Arithmetic
import PictureInPicture.Raster.Canvas

namespace PictureInPicture

open Single

/-- A number between 0 and 1. -/
def IsLevel {α : Type} [Scalar α] (x : α) : Prop := 0 ≤ x ∧ x ≤ 1

instance {α : Type} [Scalar α] (x : α) : Decidable (IsLevel x) := by
  unfold IsLevel; infer_instance

namespace Single

open Float.Model.UnpackedFloat

variable {p q r : ℚ} {k j : Nat} {x y a s d : Float32}

theorem reads_zero : Reads (Scalar.ofNat 0) 0 := .zero .positive

theorem denotes_two_pow {n : ℤ} (hn : -126 ≤ n) :
    Denotes (.finite .positive (2 ^ 23) (n - 23) (by decide)) (2 ^ n) := by
  have hvalue : ((Sign.positive.apply (2 ^ 23 : Nat) : ℤ) : ℚ) * 2 ^ (n - 23) = 2 ^ n := by
    change (((2 ^ 23 : Nat) : ℤ) : ℚ) * 2 ^ (n - 23) = 2 ^ n
    rw [zpow_sub₀ (by norm_num)]
    push_cast
    ring
  rw [← hvalue]
  exact .finite .positive _ ⟨by decide, by omega, .inr le_rfl⟩

theorem denotes_one : Denotes (.finite .positive (2 ^ 23) (-23) (by decide)) 1 := by
  have hpow := denotes_two_pow (n := 0) (by decide)
  rwa [zpow_zero] at hpow

theorem reads_one : Reads (Scalar.ofNat 1) 1 := denotes_one

theorem reads_two : Reads (Scalar.ofNat 2) 2 := by
  have hpow := denotes_two_pow (n := 1) (by decide)
  rw [zpow_one] at hpow
  exact hpow

theorem isLevel_iff : IsLevel x ↔ ∃ q, Reads x q ∧ 0 ≤ q ∧ q ≤ 1 := by
  constructor
  · rintro ⟨hlow, hhigh⟩
    exact reads_of_between reads_zero reads_one hlow hhigh
  · rintro ⟨q, hq, hlow, hhigh⟩
    exact ⟨(reads_zero.le_iff hq).mpr hlow, (hq.le_iff reads_one).mpr hhigh⟩

theorem isLevel_zero : IsLevel (Scalar.ofNat 0 : Float32) :=
  isLevel_iff.mpr ⟨0, reads_zero, le_rfl, zero_le_one⟩

theorem isLevel_one : IsLevel (Scalar.ofNat 1 : Float32) :=
  isLevel_iff.mpr ⟨1, reads_one, zero_le_one, le_rfl⟩

/-! ## Numbers of a limited size -/

/-- The number is finite, and not larger than a power of two. -/
def Within (x : Float32) (k : Nat) : Prop := ∃ q, Reads x q ∧ |q| ≤ 2 ^ k

theorem Within.mono (h : Within x k) (hk : k ≤ j) : Within x j := by
  obtain ⟨q, hq, hle⟩ := h
  exact ⟨q, hq, le_trans hle (pow_le_pow_right₀ (by norm_num) hk)⟩

theorem within_of_isLevel (h : IsLevel x) : Within x 0 := by
  obtain ⟨q, hq, hlow, hhigh⟩ := isLevel_iff.mp h
  refine ⟨q, hq, ?_⟩
  rwa [abs_of_nonneg hlow, pow_zero]

theorem within_of_le_two (h : Scalar.ofNat 0 ≤ x) (h' : x ≤ Scalar.ofNat 2) : Within x 1 := by
  obtain ⟨q, hq, hlow, hhigh⟩ := reads_of_between reads_zero reads_two h h'
  refine ⟨q, hq, ?_⟩
  rwa [abs_of_nonneg hlow, pow_one]

theorem Within.add (hx : Within x k) (hy : Within y k) (hk : k < 127) : Within (x + y) (k + 1) := by
  obtain ⟨p, hp, hple⟩ := hx
  obtain ⟨q, hq, hqle⟩ := hy
  have hle : |p + q| ≤ 2 ^ (k + 1) := by
    rw [pow_succ]
    linarith [abs_add_le p q]
  obtain ⟨r, hr, hreads⟩ := hp.add hq (le_trans hle (pow_le_pow_right₀ (by norm_num) hk))
  exact ⟨r, hreads, hr.within hle⟩

theorem Within.sub (hx : Within x k) (hy : Within y k) (hk : k < 127) : Within (x - y) (k + 1) := by
  obtain ⟨p, hp, hple⟩ := hx
  obtain ⟨q, hq, hqle⟩ := hy
  have hle : |p - q| ≤ 2 ^ (k + 1) := by
    rw [pow_succ]
    linarith [abs_sub p q]
  obtain ⟨r, hr, hreads⟩ := hp.sub hq (le_trans hle (pow_le_pow_right₀ (by norm_num) hk))
  exact ⟨r, hreads, hr.within hle⟩

theorem Within.mul (hx : Within x k) (hy : Within y j) (hkj : k + j ≤ 127) :
    Within (x * y) (k + j) := by
  obtain ⟨p, hp, hple⟩ := hx
  obtain ⟨q, hq, hqle⟩ := hy
  have hle : |p * q| ≤ 2 ^ (k + j) := by
    rw [abs_mul, pow_add]
    exact mul_le_mul hple hqle (abs_nonneg q) (by positivity)
  obtain ⟨r, hr, hreads⟩ := hp.mul hq (le_trans hle (pow_le_pow_right₀ (by norm_num) hkj))
  exact ⟨r, hreads, hr.within hle⟩

/-- A finite number that is held between 0 and 1 is a level. -/
theorem isLevel_clamp (h : Within x k) : IsLevel (Scalar.clamp x 0 1) := by
  obtain ⟨q, hq, _⟩ := h
  unfold Scalar.clamp
  dsimp only
  split
  · split
    · exact isLevel_one
    · exact isLevel_zero
  · rename_i hlow
    split
    · exact isLevel_one
    · rename_i hhigh
      exact isLevel_iff.mpr ⟨q, hq, not_lt.mp (mt (hq.lt_iff reads_zero).mpr hlow),
        not_lt.mp (mt (reads_one.lt_iff hq).mpr hhigh)⟩

/-! ## Levels that are blended -/

/-- What is left of 1 is rounded by a quarter of the last place of 1 at most. -/
theorem Rounded.error_le_of_le_one (h : Rounded p r) (hp : 0 ≤ p) (hp' : p ≤ 1) :
    |r - p| ≤ 2 ^ (-25 : ℤ) := by
  rcases eq_or_lt_of_le hp' with rfl | hlt
  · have hone : Rounded (1 : ℚ) 1 := denotes_one.rounded
    rw [h.unique hone, sub_self, abs_zero]
    positivity
  · obtain ⟨t, n, ht, hn, hr⟩ := id h
    have hplace : t ≤ -24 := by
      rcases ht.leading with rfl | hleading
      · decide
      · rw [abs_of_nonneg hp] at hleading
        have hpow : (2 : ℚ) ^ (t + 23) < 2 ^ (0 : ℤ) := by
          rw [zpow_zero]
          linarith
        rw [zpow_lt_zpow_iff_right₀ (by norm_num)] at hpow
        omega
    calc |r - p| ≤ 2 ^ t / 2 := h.error_le ht
      _ ≤ 2 ^ (-24 : ℤ) / 2 := by
        apply div_le_div_of_nonneg_right _ (by norm_num)
        exact zpow_le_zpow_right₀ (by norm_num) hplace
      _ = 2 ^ (-25 : ℤ) := by norm_num

/-- Half of the last place below 1, less than 1, is taken up to 1, which is even. -/
theorem rounded_below_one : Rounded (1 - 2 ^ (-25 : ℤ)) 1 := by
  refine ⟨-24, 2 ^ 24, ⟨by norm_num, ?_, .inr ?_⟩, ⟨?_, fun _ => by decide⟩, by norm_num⟩
  · rw [abs_of_pos (by norm_num)]
    norm_num
  · rw [abs_of_pos (by norm_num)]
    norm_num
  · norm_num

/-- A quarter of the last place above 1 is taken down to 1. -/
theorem rounded_above_one : Rounded (1 + 2 ^ (-25 : ℤ)) 1 := by
  refine ⟨-23, 2 ^ 23, ⟨by norm_num, ?_, .inr ?_⟩, nearest_of_lt ?_, by norm_num⟩
  · rw [abs_of_pos (by norm_num)]
    norm_num
  · rw [abs_of_pos (by norm_num)]
    norm_num
  · norm_num

/-- The rest of a number to 1 is rounded to at most 1. -/
theorem rounded_rest {b : ℚ} (hp : 0 ≤ p) (hp' : p ≤ 1) (hb : Rounded (1 - p) b) :
    (0 ≤ b ∧ b ≤ 1) ∧ 1 - 2 ^ (-25 : ℤ) ≤ p + b ∧ p + b ≤ 1 + 2 ^ (-25 : ℤ) := by
  obtain ⟨hlow, hhigh⟩ := abs_le.mp (hb.error_le_of_le_one (by linarith) (by linarith))
  exact ⟨⟨hb.nonneg (by linarith), hb.mono denotes_one.rounded (by linarith)⟩, by linarith,
    by linarith⟩

theorem reads_rest (ha : IsLevel a) :
    ∃ p b, (Reads a p ∧ 0 ≤ p ∧ p ≤ 1) ∧ Rounded (1 - p) b ∧ Reads (Scalar.ofNat 1 - a) b := by
  obtain ⟨p, hp, hp₀, hp₁⟩ := isLevel_iff.mp ha
  have hle : |1 - p| ≤ 2 ^ 127 := by
    rw [abs_of_nonneg (by linarith)]
    exact le_trans (by linarith : 1 - p ≤ 1) (by norm_num)
  obtain ⟨b, hb, hrest⟩ := reads_one.sub hp hle
  exact ⟨p, b, ⟨hp, hp₀, hp₁⟩, hb, hrest⟩

/-- A level is not raised when it is weighted with a number up to 1. -/
theorem reads_weighted {b : ℚ} (hx : IsLevel x) (hy : Reads y b) (hb : 0 ≤ b) (hb' : b ≤ 1) :
    ∃ u, Reads (x * y) u ∧ 0 ≤ u ∧ u ≤ b := by
  obtain ⟨q, hq, hq₀, hq₁⟩ := isLevel_iff.mp hx
  have hle : q * b ≤ b := mul_le_of_le_one_left hb hq₁
  obtain ⟨u, hu, hreads⟩ := hq.mul hy (by
    rw [abs_of_nonneg (mul_nonneg hq₀ hb)]
    exact le_trans (le_trans hle hb') (by norm_num))
  exact ⟨u, hreads, hu.nonneg (mul_nonneg hq₀ hb), hu.mono hy.rounded hle⟩

/-- A level that is weighted with an opacity, and another one that is weighted with the rest of it,
come to a level. -/
theorem isLevel_blend (hs : IsLevel s) (hd : IsLevel d) (ha : IsLevel a) :
    IsLevel (s * a + d * (Scalar.ofNat 1 - a)) := by
  obtain ⟨p, b, ⟨hp, hp₀, hp₁⟩, hb, hrest⟩ := reads_rest ha
  obtain ⟨⟨hb₀, hb₁⟩, _, habove⟩ := rounded_rest hp₀ hp₁ hb
  obtain ⟨u, hupper, hu₀, hu⟩ := reads_weighted hs hp hp₀ hp₁
  obtain ⟨v, hlower, hv₀, hv⟩ := reads_weighted hd hrest hb₀ hb₁
  obtain ⟨r, hr, hsum⟩ := hupper.add hlower (by
    rw [abs_of_nonneg (by linarith)]
    exact le_trans (by linarith : u + v ≤ 2) (by norm_num))
  exact isLevel_iff.mpr
    ⟨r, hsum, hr.nonneg (by linarith), hr.mono rounded_above_one (by linarith)⟩

/-- An opacity and the rest of it come to 1. -/
theorem opacity_add_rest (ha : IsLevel a) :
    a + Scalar.ofNat 1 * (Scalar.ofNat 1 - a) = Scalar.ofNat 1 := by
  obtain ⟨p, b, ⟨hp, hp₀, hp₁⟩, hb, hrest⟩ := reads_rest ha
  obtain ⟨⟨hb₀, hb₁⟩, hbelow, habove⟩ := rounded_rest hp₀ hp₁ hb
  obtain ⟨v, hv, hlower⟩ := reads_one.mul hrest (by
    rw [one_mul, abs_of_nonneg hb₀]
    exact le_trans hb₁ (by norm_num))
  rw [one_mul] at hv
  obtain rfl : v = b := hv.unique hrest.rounded
  obtain ⟨r, hr, hsum⟩ := add_rounded hp hlower
  have hone : r = 1 :=
    le_antisymm (hr.mono rounded_above_one habove) (rounded_below_one.mono hr hbelow)
  have hunpacked := hsum.eq_of_ne_zero denotes_one hone one_ne_zero
  exact congrArg (fun u => Float32.ofModel (.pack u)) hunpacked

end Single

/-! ## Levels of samples -/

/-- Every byte stands for a level. -/
theorem isLevel_levelOfByte (b : UInt8) : IsLevel (levelOfByte b : Float32) := by
  have hall : ∀ n : Fin 256, IsLevel (levelOfByte (UInt8.ofFin n) : Float32) := by decide +kernel
  exact hall b.toFin

/-- Whatever luma and color differences there are, their color has levels. -/
theorem isLevel_rgbOfYuv {y u v : Float32} (hy : IsLevel y) (hu : IsLevel u) (hv : IsLevel v) :
    IsLevel (rgbOfYuv y u v).1 ∧ IsLevel (rgbOfYuv y u v).2.1 ∧ IsLevel (rgbOfYuv y u v).2.2 := by
  -- Every step of the three sums is finite, so each of them is held between 0 and 1.
  have centered : ∀ {x : Float32}, IsLevel x → Within (x - Scalar.half) 1 := by
    intro x hx
    exact (within_of_isLevel hx).sub (within_of_isLevel (by decide)) (by decide)
  have weighted : ∀ {w x : Float32}, Scalar.ofNat 0 ≤ w → w ≤ Scalar.ofNat 2 → IsLevel x →
      Within (w * (x - Scalar.half)) 2 := by
    intro w x hw hw' hx
    exact (within_of_le_two hw hw').mul (centered hx) (by decide)
  have hy₂ : Within y 2 := (within_of_isLevel hy).mono (by decide)
  have hred := hy₂.add (weighted (w := Scalar.ofDecimal 1402 3) (by decide) (by decide) hv)
    (by decide)
  have hyellow := hy₂.sub (weighted (w := Scalar.ofDecimal 344136 6) (by decide) (by decide) hu)
    (by decide)
  have hgreen := hyellow.sub ((weighted (w := Scalar.ofDecimal 714136 6) (by decide) (by decide)
    hv).mono (by decide)) (by decide)
  have hblue := hy₂.add (weighted (w := Scalar.ofDecimal 1772 3) (by decide) (by decide) hu)
    (by decide)
  exact ⟨isLevel_clamp hred, isLevel_clamp hgreen, isLevel_clamp hblue⟩

end PictureInPicture
