-- The check of a buffer, read in whole numbers. Sizes and strides are words of 64 bits, and only
-- some of what is computed from them is tested for its size. The check says all the same what it
-- would say if words had no end: it lets a buffer pass exactly when all of its bytes are there, and
-- of the others it names the first thing that is wrong.
import PictureInPicture.Proofs.Buffer.Packing

namespace PictureInPicture.Buffer

variable {b : Buffer} {channels : UInt64} {n : Nat}

/-! ## The verdict -/

/-- What the check finds when it counts in whole numbers. A row of more pixels than a word can
count and an end that lies behind the largest word are told as data that is too short. -/
def verdict (b : Buffer) (channels : UInt64) : Except BufferFault Unit :=
  let row := b.width.toNat * b.pixelStride.toNat
  let reach := b.reach channels.toNat
  if b.width.toNat = 0 ∨ b.height.toNat = 0 then .error (.zeroDimension b.size)
  else if b.pixelStride.toNat < channels.toNat then
    .error (.pixelStrideTooSmall b.pixelStride channels)
  else if 2 ^ 64 ≤ row then .error (.truncated unreachable b.data.size)
  else if b.rowStride.toNat < row then
    .error (.rowStrideTooSmall b.rowStride b.width b.pixelStride)
  else if b.data.size < reach then
    .error (.truncated (UInt64.ofNat (min reach (2 ^ 64 - 1))) b.data.size)
  else .ok ()

theorem isEmpty_eq_true_iff : b.size.isEmpty = true ↔ b.width.toNat = 0 ∨ b.height.toNat = 0 := by
  have hfull : b.size.isEmpty = false ↔ 0 < b.width.toNat ∧ 0 < b.height.toNat :=
    Size.isEmpty_eq_false_iff
  rw [← Bool.not_eq_false, hfull]
  omega

/-- The words of the check tell what the whole numbers tell. -/
theorem validate_eq_verdict (hm : b.data.size ≤ addressLimit) :
    b.validate channels = b.verdict channels := by
  unfold validate verdict
  dsimp only
  by_cases hempty : b.width.toNat = 0 ∨ b.height.toNat = 0
  · rw [if_pos hempty, if_pos (isEmpty_eq_true_iff.mpr hempty)]
  rw [if_neg hempty, if_neg (mt isEmpty_eq_true_iff.mp hempty)]
  by_cases hstride : b.pixelStride.toNat < channels.toNat
  · rw [if_pos hstride, if_pos (UInt64.lt_iff_toNat_lt.mpr hstride)]
  rw [if_neg hstride, if_neg (mt UInt64.lt_iff_toNat_lt.mp hstride)]
  cases hmin : mul? b.width.toUInt64 b.pixelStride with
  | none =>
    have hlarge := mul?_eq_none.mp hmin
    rw [UInt32.toNat_toUInt64] at hlarge
    rw [if_pos hlarge]
  | some minRow =>
    have hproduct := toNat_mul? hmin
    have hword := minRow.toNat_lt
    rw [UInt32.toNat_toUInt64] at hproduct
    rw [hproduct] at hword
    rw [if_neg (Nat.not_le.mpr hword)]
    dsimp only
    by_cases hrow : b.rowStride.toNat < b.width.toNat * b.pixelStride.toNat
    · rw [if_pos hrow, if_pos (by rw [UInt64.lt_iff_toNat_lt, hproduct]; exact hrow)]
    rw [if_neg hrow, if_neg (by rw [UInt64.lt_iff_toNat_lt, hproduct]; exact hrow)]
    have hrequired : (b.required channels).toNat = min (b.reach channels.toNat) (2 ^ 64 - 1) :=
      toNat_required (by omega) (by omega) (by omega) (by omega)
    have hshort : b.data.size < (b.required channels).toNat ↔
        b.data.size < b.reach channels.toNat := by
      unfold addressLimit at hm
      omega
    rw [← hrequired, UInt64.ofNat_toNat]
    by_cases hdata : b.data.size < b.reach channels.toNat
    · rw [if_pos hdata, if_pos (hshort.mpr hdata)]
    · rw [if_neg hdata, if_neg (mt hshort.mp hdata)]

/-- The check lets a buffer pass exactly when its data covers it. -/
theorem validate_eq_ok_iff (hm : b.data.size ≤ addressLimit) :
    b.validate channels = .ok () ↔ b.Covered channels.toNat := by
  refine ⟨fun h => covered_of_validate h hm, fun hc => ?_⟩
  have hword := b.rowStride.toNat_lt
  have hdata : b.reach channels.toNat ≤ b.data.size := hc.data_le
  have hw := hc.width_pos
  have hh := hc.height_pos
  have hrow := hc.row_le
  rw [validate_eq_verdict hm]
  unfold verdict
  dsimp only
  rw [if_neg (by omega), if_neg (Nat.not_lt.mpr hc.channels_le), if_neg (by omega),
    if_neg (Nat.not_lt.mpr hrow), if_neg (Nat.not_lt.mpr hdata)]

/-! ## The bytes of the pixels -/

/-- Of all bytes of all pixels, the last one of the last pixel lies furthest back. -/
theorem bytes_inside_iff (hw : 0 < b.width.toNat) (hh : 0 < b.height.toNat) (hn : 0 < n) :
    (∀ x y k, x < b.width.toNat → y < b.height.toNat → k < n →
      y * b.rowStride.toNat + x * b.pixelStride.toNat + k < b.data.size) ↔
        b.reach n ≤ b.data.size := by
  unfold reach
  constructor
  · intro hinside
    have hlast := hinside (b.width.toNat - 1) (b.height.toNat - 1) (n - 1) (by omega) (by omega)
      (by omega)
    omega
  · intro hreach x y k hx hy hk
    have hpixel : x * b.pixelStride.toNat ≤ (b.width.toNat - 1) * b.pixelStride.toNat :=
      Nat.mul_le_mul_right _ (by omega)
    have hrow : y * b.rowStride.toNat ≤ (b.height.toNat - 1) * b.rowStride.toNat :=
      Nat.mul_le_mul_right _ (by omega)
    omega

/-! ## Products behind the check -/

theorem product_of_lt {a c : UInt64} (h : a.toNat * c.toNat < 2 ^ 64) :
    product a c = .ok (a * c) := by
  have hmul : mul? a c = some (a * c) := if_pos h
  unfold product
  rw [hmul]

theorem askTight_of_lt (h : b.width.toNat * channels.toNat < 2 ^ 64) :
    b.askTight channels = .ok (b.isTight channels) := by
  have hproduct : product b.width.toUInt64 channels = .ok (b.width.toUInt64 * channels) := by
    apply product_of_lt
    rwa [UInt32.toNat_toUInt64]
  unfold askTight
  rw [hproduct]
  split <;> rfl

theorem reserve_of_le {bytes : Nat} (h : bytes ≤ addressLimit) : reserve [bytes] = .ok () := by
  unfold reserve
  rw [List.find?_cons_of_neg (by simpa using h)]
  rfl

/-! ## The check -/

/-- The check, read in whole numbers. -/
structure Exact (b : Buffer) (channels : UInt64) : Prop where
  /-- A buffer passes if and only if each byte of each pixel lies inside its data. -/
  accepts : b.validate channels = .ok () ↔
    0 < b.width.toNat ∧ 0 < b.height.toNat ∧ channels.toNat ≤ b.pixelStride.toNat ∧
      b.width.toNat * b.pixelStride.toNat ≤ b.rowStride.toNat ∧
      ∀ x y k, x < b.width.toNat → y < b.height.toNat → k < channels.toNat →
        y * b.rowStride.toNat + x * b.pixelStride.toNat + k < b.data.size
  /-- Where the length is computed no word wraps. Each one is the number that it stands for, and
  the length is the end of the last pixel, or the largest word when that end lies behind it. -/
  counts : 0 < b.width.toNat → 0 < b.height.toNat → channels.toNat ≤ b.pixelStride.toNat →
    b.width.toNat * b.pixelStride.toNat ≤ b.rowStride.toNat →
      (b.width.toUInt64 - 1).toNat = b.width.toNat - 1 ∧
        (b.height.toUInt64 - 1).toNat = b.height.toNat - 1 ∧
        ((b.width.toUInt64 - 1) * b.pixelStride).toNat =
          (b.width.toNat - 1) * b.pixelStride.toNat ∧
        ((b.width.toUInt64 - 1) * b.pixelStride + channels).toNat =
          (b.width.toNat - 1) * b.pixelStride.toNat + channels.toNat ∧
        (b.required channels).toNat = min (b.reach channels.toNat) (2 ^ 64 - 1)
  /-- What no word can count is refused. -/
  refuses : 2 ^ 64 ≤ b.width.toNat * b.pixelStride.toNat ∨
      2 ^ 64 ≤ (b.height.toNat - 1) * b.rowStride.toNat ∨ 2 ^ 64 ≤ b.reach channels.toNat →
    ∃ fault, b.validate channels = .error fault
  emptySide : b.width.toNat = 0 ∨ b.height.toNat = 0 →
    b.validate channels = .error (.zeroDimension b.size)
  narrowPixel : 0 < b.width.toNat → 0 < b.height.toNat →
    b.pixelStride.toNat < channels.toNat →
      b.validate channels = .error (.pixelStrideTooSmall b.pixelStride channels)
  narrowRow : 0 < b.width.toNat → 0 < b.height.toNat → channels.toNat ≤ b.pixelStride.toNat →
    b.width.toNat * b.pixelStride.toNat < 2 ^ 64 →
    b.rowStride.toNat < b.width.toNat * b.pixelStride.toNat →
      b.validate channels = .error (.rowStrideTooSmall b.rowStride b.width b.pixelStride)
  shortData : 0 < b.width.toNat → 0 < b.height.toNat → channels.toNat ≤ b.pixelStride.toNat →
    b.width.toNat * b.pixelStride.toNat ≤ b.rowStride.toNat → b.reach channels.toNat < 2 ^ 64 →
    b.data.size < b.reach channels.toNat →
      ∃ required : UInt64, required.toNat = b.reach channels.toNat ∧
        b.validate channels = .error (.truncated required b.data.size)
  /-- What is computed from a buffer that has passed fits a word as well, and its pixels fit a
  memory. -/
  packs : b.validate channels = .ok () →
    b.width.toNat * channels.toNat < 2 ^ 64 ∧ b.size.area * channels.toNat < 2 ^ 64 ∧
      b.askTight channels = .ok (b.isTight channels) ∧
      reserve [b.width.toNat * channels.toNat * b.height.toNat] = .ok ()

/-- Whatever the sizes, the strides and the channels are, the check of a buffer whose data can be
had says what whole numbers say. -/
theorem words_are_enough_for_the_check (b : Buffer) (channels : UInt64)
    (hn : 0 < channels.toNat) (hm : b.data.size ≤ addressLimit) : b.Exact channels := by
  have hverdict : b.validate channels = b.verdict channels := validate_eq_verdict hm
  have hlimit : addressLimit = 2 ^ 63 - 1 := rfl
  have hword := b.rowStride.toNat_lt
  refine
    { accepts := ?accepts, counts := ?counts, refuses := ?refuses, emptySide := ?emptySide
      narrowPixel := ?narrowPixel, narrowRow := ?narrowRow, shortData := ?shortData
      packs := ?packs }
  case accepts =>
    rw [validate_eq_ok_iff hm]
    constructor
    · intro hc
      exact ⟨hc.width_pos, hc.height_pos, hc.channels_le, hc.row_le,
        (bytes_inside_iff hc.width_pos hc.height_pos hn).mpr hc.data_le⟩
    · rintro ⟨hw, hh, hstride, hrow, hinside⟩
      exact ⟨hw, hh, hstride, hrow, (bytes_inside_iff hw hh hn).mp hinside⟩
  case counts =>
    intro hw hh hstride hrow
    exact ⟨toNat_pred _ hw, toNat_pred _ hh, toNat_lastPixel hw hrow,
      toNat_lastRow hw hstride hrow, toNat_required hw hh hstride hrow⟩
  case refuses =>
    intro hlarge
    cases hv : b.validate channels with
    | error fault => exact ⟨fault, rfl⟩
    | ok =>
      -- Whatever passes is covered by data, and no data is as long as the largest word.
      have hc := covered_of_validate hv hm
      have hrow := hc.row_le
      have hreach : b.reach channels.toNat ≤ b.data.size := hc.data_le
      unfold reach at hlarge hreach
      omega
  case emptySide =>
    intro hempty
    rw [hverdict]
    exact if_pos hempty
  case narrowPixel =>
    intro hw hh hstride
    rw [hverdict]
    unfold verdict
    dsimp only
    rw [if_neg (by omega), if_pos hstride]
  case narrowRow =>
    intro hw hh hstride hfits hrow
    rw [hverdict]
    unfold verdict
    dsimp only
    rw [if_neg (by omega), if_neg (by omega), if_neg (by omega), if_pos hrow]
  case shortData =>
    intro hw hh hstride hrow hfits hdata
    have hmin : min (b.reach channels.toNat) (2 ^ 64 - 1) = b.reach channels.toNat := by omega
    refine ⟨UInt64.ofNat (b.reach channels.toNat), UInt64.toNat_ofNat_of_lt hfits, ?_⟩
    rw [hverdict]
    unfold verdict
    dsimp only
    rw [if_neg (by omega), if_neg (by omega), if_neg (by omega), if_neg (by omega), if_pos hdata,
      hmin]
  case packs =>
    intro hv
    have hc := covered_of_validate hv hm
    have harea := hc.area_le
    have hline : b.width.toNat * channels.toNat < 2 ^ 64 := by
      have hle := Nat.mul_le_mul_left b.width.toNat hc.channels_le
      have hrow := hc.row_le
      omega
    refine ⟨hline, by omega, askTight_of_lt hline, reserve_of_le ?_⟩
    rw [Nat.mul_comm, ← area_mul]
    omega

/-- Three rows whose strides add up to 2 ^ 64 and a row of 2 ^ 64 bytes are refused, and neither
length wraps to one that the data has. A last row without its padding is let through. -/
theorem rows_too_far_apart_are_refused :
    let far : Buffer := ⟨2, 3, 9223372036854775808, 1, ⟨#[1, 2, 3, 4]⟩⟩
    let wide : Buffer := ⟨2, 1, 0, 9223372036854775808, ⟨#[1, 2, 3, 4]⟩⟩
    let near : Buffer := ⟨3, 2, 7, 2, ⟨#[10, 90, 11, 91, 12, 92, 0, 20, 80, 21, 81, 22]⟩⟩
    0 < (1 : UInt64).toNat ∧ far.data.size ≤ addressLimit ∧ wide.data.size ≤ addressLimit ∧
      near.data.size ≤ addressLimit ∧
      (∃ fault, far.validate 1 = .error fault) ∧ (∃ fault, wide.validate 1 = .error fault) ∧
      near.validate 1 = .ok () ∧ reserve [6] = .ok () := by
  intro far wide near
  have hfar := words_are_enough_for_the_check far 1 (by decide) (by decide)
  have hwide := words_are_enough_for_the_check wide 1 (by decide) (by decide)
  have hnear := words_are_enough_for_the_check near 1 (by decide) (by decide)
  have hinside := (bytes_inside_iff (b := near) (n := 1) (by decide) (by decide)
    (by decide)).mpr (by decide)
  have hpass := hnear.accepts.mpr ⟨by decide, by decide, by decide, by decide, hinside⟩
  exact ⟨by decide, by decide, by decide, by decide, hfar.refuses (by decide),
    hwide.refuses (by decide), hpass, (hnear.packs hpass).2.2.2⟩

end PictureInPicture.Buffer
