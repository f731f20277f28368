-- What packing a buffer gives: the memory holds the addressed bytes of every pixel and nothing
-- else. A buffer that passed its check is always packed, for no memory is so large that the
-- lengths of the check stop telling the truth.
import Mathlib.Algebra.Group.Nat.Defs
import PictureInPicture.Buffer

namespace PictureInPicture

/-! ## Bytes of a memory -/

namespace Bytes

theorem getElem?_eq_data (a : ByteArray) (i : Nat) : a[i]? = a.data[i]? := by
  by_cases h : i < a.size
  · rw [getElem?_pos a i h, getElem?_pos a.data i h]
    rfl
  · rw [getElem?_neg a i h, getElem?_neg a.data i h]

theorem getElem?_append_left {a : ByteArray} {i : Nat} (h : i < a.size) (b : ByteArray) :
    (a ++ b)[i]? = a[i]? := by
  rw [getElem?_eq_data, getElem?_eq_data, ByteArray.data_append]
  exact Array.getElem?_append_left h

theorem getElem?_append_right (a b : ByteArray) (i : Nat) : (a ++ b)[a.size + i]? = b[i]? := by
  change (a ++ b)[a.data.size + i]? = b[i]?
  rw [getElem?_eq_data, getElem?_eq_data, ByteArray.data_append,
    Array.getElem?_append_right (Nat.le_add_right a.data.size i)]
  congr 1
  exact Nat.add_sub_cancel_left a.data.size i

theorem getElem?_extract {a : ByteArray} {start stop i : Nat} (h : start + i < stop) :
    (a.extract start stop)[i]? = a[start + i]? := by
  rw [getElem?_eq_data, getElem?_eq_data, ByteArray.data_extract, Array.getElem?_extract]
  split
  · rfl
  · rename_i hout
    rw [getElem?_neg]
    omega

end Bytes

/-- A place in rows that are put end to end. -/
theorem place_lt {x y w h : Nat} (hx : x < w) (hy : y < h) : y * w + x < h * w := by
  calc y * w + x < y * w + w := by omega
    _ = (y + 1) * w := (Nat.succ_mul y w).symm
    _ ≤ h * w := Nat.mul_le_mul_right w hy

/-- Every place in rows that are put end to end lies in one of them. -/
theorem pixel_of_place {i w h : Nat} (hi : i < h * w) :
    ∃ x y, (x < w ∧ y < h) ∧ i = y * w + x := by
  have hw : 0 < w := by
    apply Nat.pos_of_ne_zero
    rintro rfl
    exact absurd hi (Nat.not_lt_zero i)
  refine ⟨i % w, i / w, ⟨Nat.mod_lt i hw, (Nat.div_lt_iff_lt_mul hw).mpr hi⟩, ?_⟩
  exact (Nat.div_add_mod' i w).symm

namespace Buffer

variable {b : Buffer} {n : Nat} {out out' : ByteArray}

/-! ## What the check says -/

/-- The pixels of a buffer lie one after the other, the rows as well, and the last pixel ends
inside the data. -/
structure Covered (b : Buffer) (channels : Nat) : Prop where
  width_pos : 0 < b.width.toNat
  height_pos : 0 < b.height.toNat
  channels_le : channels ≤ b.pixelStride.toNat
  row_le : b.width.toNat * b.pixelStride.toNat ≤ b.rowStride.toNat
  data_le : (b.height.toNat - 1) * b.rowStride.toNat +
    ((b.width.toNat - 1) * b.pixelStride.toNat + channels) ≤ b.data.size

theorem toNat_mul? {a c ac : UInt64} (h : mul? a c = some ac) : ac.toNat = a.toNat * c.toNat := by
  unfold mul? at h
  split at h
  · cases h
    rw [UInt64.toNat_mul]
    exact Nat.mod_eq_of_lt ‹_›
  · cases h

theorem toNat_add? {a c ac : UInt64} (h : add? a c = some ac) : ac.toNat = a.toNat + c.toNat := by
  unfold add? at h
  split at h
  · cases h
    rw [UInt64.toNat_add]
    exact Nat.mod_eq_of_lt ‹_›
  · cases h

theorem mul?_eq_none {a c : UInt64} : mul? a c = none ↔ 2 ^ 64 ≤ a.toNat * c.toNat := by
  unfold mul?
  split
  · rename_i hfits
    exact ⟨nofun, fun hlarge => absurd hfits (Nat.not_lt.mpr hlarge)⟩
  · rename_i hlarge
    exact ⟨fun _ => Nat.not_lt.mp hlarge, fun _ => rfl⟩

theorem add?_eq_none {a c : UInt64} : add? a c = none ↔ 2 ^ 64 ≤ a.toNat + c.toNat := by
  unfold add?
  split
  · rename_i hfits
    exact ⟨nofun, fun hlarge => absurd hfits (Nat.not_lt.mpr hlarge)⟩
  · rename_i hlarge
    exact ⟨fun _ => Nat.not_lt.mp hlarge, fun _ => rfl⟩

theorem toNat_pred (side : UInt32) (h : 0 < side.toNat) :
    (side.toUInt64 - 1).toNat = side.toNat - 1 := by
  have : (1 : UInt64) ≤ side.toUInt64 := by
    rw [UInt64.le_iff_toNat_le]
    rw [UInt32.toNat_toUInt64]
    exact h
  rw [UInt64.toNat_sub_of_le _ _ this]
  simp

theorem pred_mul_add {side : Nat} (h : 0 < side) (stride : Nat) :
    (side - 1) * stride + stride = side * stride := by
  rw [← Nat.succ_mul, Nat.succ_eq_add_one, Nat.sub_add_cancel h]

/-- The parts of the check, in the order in which they are made. -/
theorem parts_of_validate {channels : UInt64} (h : b.validate channels = .ok ()) :
    (0 < b.width.toNat ∧ 0 < b.height.toNat) ∧
      channels.toNat ≤ b.pixelStride.toNat ∧
      b.width.toNat * b.pixelStride.toNat ≤ b.rowStride.toNat ∧
      (b.required channels).toNat ≤ b.data.size := by
  unfold validate at h
  split at h
  · cases h
  rename_i hsize
  rw [Bool.not_eq_true] at hsize
  split at h
  · cases h
  rename_i hstride
  rw [UInt64.not_lt, UInt64.le_iff_toNat_le] at hstride
  split at h
  · cases h
  rename_i minRow hmin
  split at h
  · cases h
  rename_i hrow
  rw [UInt64.not_lt, UInt64.le_iff_toNat_le, toNat_mul? hmin, UInt32.toNat_toUInt64] at hrow
  split at h
  · cases h
  rename_i hdata
  exact ⟨Size.isEmpty_eq_false_iff.mp hsize, hstride, hrow, Nat.le_of_not_lt hdata⟩

/-- The end of the last pixel, counted from the start of the data. -/
def reach (b : Buffer) (channels : Nat) : Nat :=
  (b.height.toNat - 1) * b.rowStride.toNat +
    ((b.width.toNat - 1) * b.pixelStride.toNat + channels)

section

variable {channels : UInt64} (hw : 0 < b.width.toNat) (hh : 0 < b.height.toNat)
  (hc : channels.toNat ≤ b.pixelStride.toNat)
  (hrow : b.width.toNat * b.pixelStride.toNat ≤ b.rowStride.toNat)

include hw hrow

/-- The pixels of a row are no more bytes than a word counts, for the row stride is a word. -/
theorem toNat_lastPixel : ((b.width.toUInt64 - 1) * b.pixelStride).toNat =
    (b.width.toNat - 1) * b.pixelStride.toNat := by
  have hline := pred_mul_add hw b.pixelStride.toNat
  have hword := b.rowStride.toNat_lt
  rw [UInt64.toNat_mul, toNat_pred _ hw]
  exact Nat.mod_eq_of_lt (by omega)

include hc

theorem toNat_lastRow : ((b.width.toUInt64 - 1) * b.pixelStride + channels).toNat =
    (b.width.toNat - 1) * b.pixelStride.toNat + channels.toNat := by
  have hline := pred_mul_add hw b.pixelStride.toNat
  have hword := b.rowStride.toNat_lt
  rw [UInt64.toNat_add, toNat_lastPixel hw hrow]
  exact Nat.mod_eq_of_lt (by omega)

include hh

/-- What the check asks of the data is the end of the last pixel, or the largest word. -/
theorem toNat_required :
    (b.required channels).toNat = min (b.reach channels.toNat) (2 ^ 64 - 1) := by
  have hlast := toNat_lastRow hw hc hrow
  have hend : unreachable.toNat = 2 ^ 64 - 1 := rfl
  unfold required reach
  dsimp only
  rw [← hlast]
  cases hrows : mul? (b.height.toUInt64 - 1) b.rowStride with
  | none =>
    have hlarge := mul?_eq_none.mp hrows
    rw [toNat_pred _ hh] at hlarge
    dsimp only
    rw [hend]
    omega
  | some rows =>
    have hproduct := toNat_mul? hrows
    rw [toNat_pred _ hh] at hproduct
    dsimp only
    rw [← hproduct]
    cases hsum : add? rows ((b.width.toUInt64 - 1) * b.pixelStride + channels) with
    | none =>
      have hlarge := add?_eq_none.mp hsum
      rw [Option.getD_none, hend]
      omega
    | some total =>
      have hword := total.toNat_lt
      rw [Option.getD_some, ← toNat_add? hsum]
      omega

end

theorem covered_of_validate {channels : UInt64} (h : b.validate channels = .ok ())
    (hm : b.data.size ≤ addressLimit) : b.Covered channels.toNat := by
  obtain ⟨⟨hw, hh⟩, hstride, hrow, hdata⟩ := parts_of_validate h
  rw [toNat_required hw hh hstride hrow] at hdata
  -- No memory is as large as the largest word.
  have hreach : b.reach channels.toNat ≤ b.data.size := by
    unfold addressLimit at hm
    omega
  exact ⟨hw, hh, hstride, hrow, hreach⟩

/-! ## What packing does -/

/-- The memory holds the first rows of a buffer and nothing else: the channels of a pixel, the
pixels of a row and the rows are put end to end. -/
structure HoldsRows (b : Buffer) (channels rows : Nat) (memory : ByteArray) : Prop where
  size_eq : memory.size = rows * (b.width.toNat * channels)
  byte : ∀ x y k, x < b.width.toNat → y < rows → k < channels →
    memory[(y * b.width.toNat + x) * channels + k]? = b.byte? x y k

/-- The memory holds the pixels of a buffer and nothing else. -/
def Fills (b : Buffer) (channels : Nat) (memory : ByteArray) : Prop :=
  b.HoldsRows channels b.height.toNat memory

theorem copySlice_ok {data : ByteArray} {start stop limit : Nat}
    (h : copySlice data start stop limit out = .ok out') :
    stop ≤ limit ∧ out' = out ++ data.extract start stop := by
  unfold copySlice at h
  split at h
  · cases h
    exact ⟨‹_›, rfl⟩
  · cases h

/-- The pixels that were gathered are put behind what was there. -/
theorem gatherPixels_ok {start stop count x : Nat} (hstop : stop ≤ b.data.size)
    (h : gatherPixels b n start stop count x out = .ok out') :
    ∃ strip, out' = out ++ strip ∧ strip.size = count * n ∧
      ∀ j k, j < count → k < n →
        strip[j * n + k]? = b.data[start + (x + j) * b.pixelStride.toNat + k]? := by
  induction count generalizing x out with
  | zero =>
    cases h
    refine ⟨.empty, by simp, by simp, ?_⟩
    intro j k hj
    omega
  | succ count ih =>
    unfold gatherPixels at h
    dsimp only at h
    split at h
    · cases h
    rename_i next hcopy
    obtain ⟨hle, rfl⟩ := copySlice_ok hcopy
    obtain ⟨strip, rfl, hsize, hline⟩ := ih h
    have hfirst : (b.data.extract (start + x * b.pixelStride.toNat)
        (start + x * b.pixelStride.toNat + n)).size = n := by
      rw [ByteArray.size_extract]
      omega
    refine ⟨_, ByteArray.append_assoc, ?_, ?_⟩
    · rw [ByteArray.size_append, hfirst, hsize, Nat.succ_mul, Nat.add_comm]
    · intro j k hj hk
      cases j with
      | zero =>
        rw [Nat.zero_mul, Nat.zero_add, Bytes.getElem?_append_left (by omega),
          Bytes.getElem?_extract (by omega)]
        rfl
      | succ j =>
        have hplace : (j + 1) * n + k = n + (j * n + k) := by
          rw [Nat.succ_mul]
          omega
        have hright := Bytes.getElem?_append_right (b.data.extract (start + x * b.pixelStride.toNat)
          (start + x * b.pixelStride.toNat + n)) strip (j * n + k)
        rw [hfirst] at hright
        rw [hplace, hright, hline j k (by omega) hk, Nat.add_right_comm x 1 j, Nat.add_assoc x j 1]

/-- A row that was packed is put behind what was there. -/
theorem packRow_ok {row : Nat} (h : packRow b n row out = .ok out') :
    ∃ strip, out' = out ++ strip ∧ strip.size = b.width.toNat * n ∧
      ∀ x k, x < b.width.toNat → k < n → strip[x * n + k]? = b.byte? x row k := by
  unfold packRow at h
  dsimp only at h
  split at h
  · rename_i hstride
    obtain ⟨hle, rfl⟩ := copySlice_ok h
    refine ⟨_, rfl, ?_, ?_⟩
    · rw [ByteArray.size_extract]
      omega
    · intro x k hx hk
      have hlt : x * n + k < b.width.toNat * n := place_lt hk hx
      rw [Bytes.getElem?_extract (by omega), byte?, hstride, Nat.add_assoc]
  · obtain ⟨strip, rfl, hsize, hline⟩ := gatherPixels_ok (Nat.min_le_right _ _) h
    refine ⟨strip, rfl, hsize, ?_⟩
    intro x k hx hk
    rw [hline x k hx hk, byte?, Nat.zero_add]

theorem holdsRows_append {rows : Nat} {strip : ByteArray} (h : b.HoldsRows n rows out)
    (hsize : strip.size = b.width.toNat * n)
    (hline : ∀ x k, x < b.width.toNat → k < n → strip[x * n + k]? = b.byte? x rows k) :
    b.HoldsRows n (rows + 1) (out ++ strip) where
  size_eq := by rw [ByteArray.size_append, h.size_eq, hsize, Nat.succ_mul]
  byte := by
    intro x y k hx hy hk
    by_cases hlast : y = rows
    · have hplace : (y * b.width.toNat + x) * n + k = out.size + (x * n + k) := by
        rw [h.size_eq, hlast, Nat.add_mul, Nat.mul_assoc, Nat.add_assoc]
      rw [hplace, Bytes.getElem?_append_right, hline x k hx hk, hlast]
    · have hlt : (y * b.width.toNat + x) * n + k < out.size := by
        rw [h.size_eq, ← Nat.mul_assoc]
        exact place_lt hk (place_lt hx (by omega))
      rw [Bytes.getElem?_append_left hlt]
      exact h.byte x y k hx (by omega) hk

theorem packRows_ok {count row : Nat} (hout : b.HoldsRows n row out)
    (h : packRows b n count row out = .ok out') : b.HoldsRows n (row + count) out' := by
  induction count generalizing row out with
  | zero =>
    cases h
    exact hout
  | succ count ih =>
    unfold packRows at h
    split at h
    · cases h
    rename_i next hrow
    obtain ⟨strip, rfl, hsize, hline⟩ := packRow_ok hrow
    rw [Nat.add_comm count 1, ← Nat.add_assoc]
    exact ih (holdsRows_append hout hsize hline) h

theorem copySlice_of_le {data : ByteArray} {start stop limit : Nat} (h : stop ≤ limit) :
    copySlice data start stop limit out = .ok (out ++ data.extract start stop) := if_pos h

theorem gatherPixels_of_le {start stop count x : Nat}
    (h : ∀ j, j < x + count → start + j * b.pixelStride.toNat + n ≤ stop) :
    ∃ out', gatherPixels b n start stop count x out = .ok out' := by
  induction count generalizing x out with
  | zero => exact ⟨out, rfl⟩
  | succ count ih =>
    unfold gatherPixels
    dsimp only
    rw [copySlice_of_le (h x (by omega))]
    apply ih
    intro j hj
    exact h j (by omega)

/-- The rows of a buffer lie inside its data. -/
theorem packRow_of_covered (hc : b.Covered n) {row : Nat} (hrow : row < b.height.toNat) :
    ∃ out', packRow b n row out = .ok out' := by
  have hstart : row * b.rowStride.toNat ≤ (b.height.toNat - 1) * b.rowStride.toNat :=
    Nat.mul_le_mul_right _ (by omega)
  have hdata := hc.data_le
  -- The last pixel of a row ends inside the row, and inside the data.
  have hend : (b.width.toNat - 1) * b.pixelStride.toNat + n ≤
      min b.rowStride.toNat (b.data.size - row * b.rowStride.toNat) := by
    have hlast := pred_mul_add hc.width_pos b.pixelStride.toNat
    have hstride := hc.channels_le
    have hle := hc.row_le
    omega
  unfold packRow
  dsimp only
  split
  · rename_i hstride
    have hline := pred_mul_add hc.width_pos b.pixelStride.toNat
    rw [hstride] at hline hend
    exact ⟨_, copySlice_of_le (by omega)⟩
  · apply gatherPixels_of_le
    intro j hj
    have hpixel : j * b.pixelStride.toNat ≤ (b.width.toNat - 1) * b.pixelStride.toNat :=
      Nat.mul_le_mul_right _ (by omega)
    omega

theorem packRows_of_covered (hc : b.Covered n) {count row : Nat}
    (hrows : row + count ≤ b.height.toNat) : ∃ out', packRows b n count row out = .ok out' := by
  induction count generalizing row out with
  | zero => exact ⟨out, rfl⟩
  | succ count ih =>
    obtain ⟨next, hrow⟩ : ∃ next, packRow b n row out = .ok next :=
      packRow_of_covered hc (by omega)
    unfold packRows
    rw [hrow]
    apply ih
    omega

theorem rowStride_pos (hc : b.Covered n) (hn : 0 < n) : 0 < b.rowStride.toNat := by
  have hstride := hc.channels_le
  calc 0 < b.width.toNat * b.pixelStride.toNat := Nat.mul_pos hc.width_pos (by omega)
    _ ≤ b.rowStride.toNat := hc.row_le

variable {channels : UInt64} {bytes : ByteArray}

theorem pack_of_covered (hc : b.Covered channels.toNat) (hrows : b.rowStride ≠ 0) :
    ∃ bytes, b.pack channels = .ok bytes := by
  unfold pack
  rw [if_neg hrows]
  apply packRows_of_covered hc
  omega

theorem holdsRows_of_pack (h : b.pack channels = .ok bytes) :
    b.HoldsRows channels.toNat (min b.height.toNat b.chunkCount) bytes := by
  unfold pack at h
  split at h
  · cases h
  · have hnone : b.HoldsRows channels.toNat 0 .empty :=
      ⟨by simp, fun x y k _ hy _ => absurd hy (Nat.not_lt_zero y)⟩
    have hall := packRows_ok hnone h
    rwa [Nat.zero_add] at hall

theorem area_mul (b : Buffer) (n : Nat) :
    b.size.area * n = b.height.toNat * (b.width.toNat * n) := by
  rw [← Nat.mul_assoc, Nat.mul_comm b.height.toNat]
  rfl

/-- The pixels of a covered buffer are no more bytes than its data. -/
theorem Covered.area_le (hc : b.Covered n) : b.size.area * n ≤ b.data.size := by
  have hline : b.width.toNat * n ≤ b.rowStride.toNat :=
    Nat.le_trans (Nat.mul_le_mul_left _ hc.channels_le) hc.row_le
  have hlast : (b.width.toNat - 1) * n ≤ (b.width.toNat - 1) * b.pixelStride.toNat :=
    Nat.mul_le_mul_left _ hc.channels_le
  have hrows : (b.height.toNat - 1) * (b.width.toNat * n) ≤
      (b.height.toNat - 1) * b.rowStride.toNat := Nat.mul_le_mul_left _ hline
  calc b.size.area * n = b.height.toNat * (b.width.toNat * n) := area_mul b n
    _ = (b.height.toNat - 1) * (b.width.toNat * n) + ((b.width.toNat - 1) * n + n) := by
      rw [pred_mul_add hc.width_pos, pred_mul_add hc.height_pos]
    _ ≤ b.data.size := by
      have hdata := hc.data_le
      omega

theorem isTight_iff : b.isTight channels = true ↔
    b.pixelStride = channels ∧ b.rowStride.toNat = b.width.toNat * channels.toNat := by
  rw [isTight, Bool.and_eq_true, decide_eq_true_eq, decide_eq_true_eq]

/-- Data without padding and gaps starts with the pixels. -/
theorem fills_extract (ht : b.isTight channels = true)
    (hl : b.size.area * channels.toNat ≤ b.data.size) :
    b.Fills channels.toNat (b.data.extract 0 (b.size.area * channels.toNat)) := by
  obtain ⟨hpixel, hrow⟩ := isTight_iff.mp ht
  refine ⟨?_, ?_⟩
  · rw [ByteArray.size_extract, Nat.min_eq_left hl, Nat.sub_zero, area_mul]
  · intro x y k hx hy hk
    have hlt : (y * b.width.toNat + x) * channels.toNat + k <
        b.size.area * channels.toNat := by
      rw [area_mul, ← Nat.mul_assoc]
      exact place_lt hk (place_lt hx hy)
    rw [Bytes.getElem?_extract (by omega), byte?, hpixel, hrow, Nat.zero_add, Nat.add_mul,
      Nat.mul_assoc]

/-- However the pixels are had, the rows that are there are those of the buffer. -/
theorem holdsRows_of_tightBytes {tight : TightBytes} (h : b.tightBytes channels = .ok tight) :
    ∃ rows, b.HoldsRows channels.toNat rows tight.bytes := by
  unfold tightBytes at h
  split at h
  · cases h
  split at h
  · rename_i ht
    dsimp only at h
    split at h
    · rename_i hl
      cases h
      exact ⟨_, fills_extract ht hl⟩
    · cases h
  · cases hpack : b.pack channels with
    | error =>
      rw [hpack] at h
      cases h
    | ok bytes =>
      rw [hpack] at h
      cases h
      exact ⟨_, holdsRows_of_pack hpack⟩

/-- A buffer that was packed into so many bytes as it has pixels is there as a whole. -/
theorem fills_of_tightBytes {tight : TightBytes} (h : b.tightBytes channels = .ok tight)
    (hn : 0 < channels.toNat) (hsize : tight.bytes.size = b.size.area * channels.toNat) :
    b.Fills channels.toNat tight.bytes := by
  obtain ⟨rows, hrows⟩ := holdsRows_of_tightBytes h
  have hvalid : b.validate channels = .ok () := by
    unfold tightBytes at h
    split at h
    · cases h
    · assumption
  have hline : 0 < b.width.toNat * channels.toNat :=
    Nat.mul_pos (parts_of_validate hvalid).1.1 hn
  have hcount : rows = b.height.toNat := by
    apply Nat.eq_of_mul_eq_mul_right hline
    rw [← hrows.size_eq, hsize, area_mul]
  rw [hcount] at hrows
  exact hrows

/-- The data of a checked buffer is long enough for all of its rows. -/
theorem height_le_chunkCount (hc : b.Covered n) (hn : 0 < n) : b.height.toNat ≤ b.chunkCount := by
  have hpos := rowStride_pos hc hn
  have hdata := hc.data_le
  have hrows := pred_mul_add hc.height_pos b.rowStride.toNat
  unfold chunkCount
  rw [Nat.le_div_iff_mul_le hpos]
  omega

/-- Rows of no bytes hold pixels of no bytes, and nothing lies between them. -/
theorem isTight_of_rowStride (hc : b.Covered channels.toNat) (hzero : b.rowStride = 0) :
    b.isTight channels = true ∧ channels.toNat = 0 := by
  have hrow : b.width.toNat * b.pixelStride.toNat ≤ 0 := by
    have hle := hc.row_le
    rwa [hzero] at hle
  have hpixel : b.pixelStride.toNat = 0 :=
    (Nat.mul_eq_zero.mp (Nat.le_zero.mp hrow)).resolve_left (Nat.ne_of_gt hc.width_pos)
  have hnone : channels.toNat = 0 := by
    have hle := hc.channels_le
    omega
  refine ⟨isTight_iff.mpr ⟨UInt64.toNat_inj.mp (hpixel.trans hnone.symm), ?_⟩, hnone⟩
  rw [hzero, hnone]
  rfl

/-- A memory that is packed holds the whole of a checked buffer. -/
theorem fills_of_pack (hc : b.Covered channels.toNat) (h : b.pack channels = .ok bytes) :
    b.Fills channels.toNat bytes := by
  have hrows := holdsRows_of_pack h
  rcases Nat.eq_zero_or_pos channels.toNat with hzero | hpos
  · refine ⟨?_, fun x y k _ _ hk => absurd hk (by omega)⟩
    rw [hrows.size_eq, hzero, Nat.mul_zero, Nat.mul_zero, Nat.mul_zero]
  · rwa [Nat.min_eq_left (height_le_chunkCount hc hpos)] at hrows

/-- A checked buffer is always packed, and packed as a whole. -/
theorem tightBytes_of_covered (hv : b.validate channels = .ok ())
    (hc : b.Covered channels.toNat) :
    ∃ tight, b.tightBytes channels = .ok tight ∧ b.Fills channels.toNat tight.bytes := by
  unfold tightBytes
  rw [hv]
  dsimp only
  by_cases ht : b.isTight channels = true
  · rw [if_pos ht, if_pos hc.area_le]
    exact ⟨_, rfl, fills_extract ht hc.area_le⟩
  · obtain ⟨bytes, hpack⟩ :=
      pack_of_covered hc fun hzero => ht (isTight_of_rowStride hc hzero).1
    rw [if_neg ht, hpack]
    exact ⟨_, rfl, fills_of_pack hc hpack⟩

end Buffer

end PictureInPicture
