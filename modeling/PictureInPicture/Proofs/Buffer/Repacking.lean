-- What a producer's buffer becomes when its pixels are put end to end. Copying is exact: each byte
-- comes from its own place, whatever lies between the pixels and behind them. A buffer that has no
-- gaps is not copied, and the answer is the one that copying would have given. Only pixels of no
-- bytes in rows of no bytes are borrowed where copying crashes.
import PictureInPicture.Proofs.Buffer.Validation

namespace PictureInPicture.Buffer

variable {b : Buffer} {channels : UInt64} {n rows : Nat} {bytes bytes' : ByteArray}

/-! ## Copying -/

/-- Rows of no bytes cannot be cut out of the data. -/
theorem pack_of_rowStride (hzero : b.rowStride = 0) :
    b.pack channels = .error .rowsOfNoBytes := if_pos hzero

theorem repack_of_error {fault : BufferFault} (hv : b.validate channels = .error fault) :
    b.repack channels = .error (.refused fault) := by
  unfold repack
  rw [hv]

theorem repack_of_ok (hv : b.validate channels = .ok ()) :
    b.repack channels = (b.pack channels).mapError .crashed := by
  unfold repack
  rw [hv]

/-- A buffer that has passed its check is copied, as long as its rows have bytes. -/
theorem repack_of_covered (hv : b.validate channels = .ok ()) (hc : b.Covered channels.toNat)
    (hrows : b.rowStride ≠ 0) :
    ∃ bytes, b.repack channels = .ok bytes ∧ b.Fills channels.toNat bytes := by
  obtain ⟨bytes, hpack⟩ := pack_of_covered hc hrows
  refine ⟨bytes, ?_, fills_of_pack hc hpack⟩
  rw [repack_of_ok hv, hpack]
  rfl

/-- The bytes of a covered buffer are all there. -/
theorem byte?_of_covered (hc : b.Covered n) {x y k : Nat} (hx : x < b.width.toNat)
    (hy : y < b.height.toNat) (hk : k < n) : ∃ value, b.byte? x y k = some value := by
  have hinside := (bytes_inside_iff hc.width_pos hc.height_pos (by omega)).mpr hc.data_le
  exact ⟨_, getElem?_pos b.data _ (hinside x y k hx hy hk)⟩

/-- Copying answers what the check answers, it reads nothing that is not there, and the bytes of
the copy are those of the pixels, each in its place. -/
theorem a_copy_has_every_byte_in_its_place (b : Buffer) (channels : UInt64)
    (hn : 0 < channels.toNat) (hm : b.data.size ≤ addressLimit) :
    (∀ fault, b.repack channels = .error (.refused fault) ↔ b.validate channels = .error fault) ∧
      (∀ crash, b.repack channels ≠ .error (.crashed crash)) ∧
      ((∃ bytes, b.repack channels = .ok bytes) ↔ b.validate channels = .ok ()) ∧
      ∀ bytes, b.repack channels = .ok bytes →
        bytes.size = b.width.toNat * b.height.toNat * channels.toNat ∧
          ∀ x y k, x < b.width.toNat → y < b.height.toNat → k < channels.toNat →
            ∃ value,
              b.data[y * b.rowStride.toNat + x * b.pixelStride.toNat + k]? = some value ∧
                bytes[(y * b.width.toNat + x) * channels.toNat + k]? = some value := by
  cases hv : b.validate channels with
  | error fault =>
    rw [repack_of_error hv]
    refine ⟨?_, nofun, ⟨nofun, nofun⟩, nofun⟩
    intro other
    exact ⟨fun h => by cases h; rfl, fun h => by cases h; rfl⟩
  | ok =>
    have hc := covered_of_validate hv hm
    have hrows : b.rowStride ≠ 0 := fun hzero => by
      have hnone := (isTight_of_rowStride hc hzero).2
      omega
    obtain ⟨bytes, hcopy, hfills⟩ := repack_of_covered hv hc hrows
    rw [hcopy]
    refine ⟨fun fault => ⟨nofun, nofun⟩, nofun, ⟨fun _ => rfl, fun _ => ⟨bytes, rfl⟩⟩, ?_⟩
    intro copy hsame
    cases hsame
    refine ⟨?_, ?_⟩
    · rw [hfills.size_eq, ← area_mul]
      rfl
    · intro x y k hx hy hk
      obtain ⟨value, hvalue⟩ := byte?_of_covered hc hx hy hk
      exact ⟨value, hvalue, (hfills.byte x y k hx hy hk).trans hvalue⟩

/-- Two rows of three samples, every second byte of a row that has one byte more. The last row
lacks that byte, and in the second buffer other bytes follow it. -/
theorem a_gap_is_left_out_of_the_copy :
    let short : Buffer := ⟨3, 2, 7, 2, ⟨#[10, 90, 11, 91, 12, 92, 0, 20, 80, 21, 81, 22]⟩⟩
    let long : Buffer :=
      ⟨3, 2, 7, 2, ⟨#[10, 90, 11, 91, 12, 92, 0, 20, 80, 21, 81, 22, 82, 0, 5, 6]⟩⟩
    0 < (1 : UInt64).toNat ∧ short.data.size ≤ addressLimit ∧ long.data.size ≤ addressLimit ∧
      (∃ bytes, short.repack 1 = .ok bytes ∧ bytes.size = 6 ∧ bytes[5]? = some 22) ∧
      ∃ bytes, long.repack 1 = .ok bytes ∧ bytes.size = 6 ∧ bytes[5]? = some 22 := by
  intro short long
  obtain ⟨-, -, hshort, hbytes⟩ :=
    a_copy_has_every_byte_in_its_place short 1 (by decide) (by decide)
  obtain ⟨-, -, hlong, hbytes'⟩ :=
    a_copy_has_every_byte_in_its_place long 1 (by decide) (by decide)
  obtain ⟨copy, hcopy⟩ := hshort.mpr (by cbv)
  obtain ⟨copy', hcopy'⟩ := hlong.mpr (by cbv)
  obtain ⟨hsize, hplaces⟩ := hbytes copy hcopy
  obtain ⟨hsize', hplaces'⟩ := hbytes' copy' hcopy'
  -- The last byte of the copy is the first one of the third pixel of the second row.
  obtain ⟨value, hvalue, hlast⟩ := hplaces 2 1 0 (by decide) (by decide) (by decide)
  obtain ⟨value', hvalue', hlast'⟩ := hplaces' 2 1 0 (by decide) (by decide) (by decide)
  exact ⟨by decide, by decide, by decide, ⟨copy, hcopy, hsize, hlast.trans hvalue.symm⟩,
    copy', hcopy', hsize', hlast'.trans hvalue'.symm⟩

/-! ## Copying and borrowing -/

/-- There is only one memory that holds so many rows and nothing else. -/
theorem HoldsRows.unique (h : b.HoldsRows n rows bytes) (h' : b.HoldsRows n rows bytes') :
    bytes = bytes' := by
  apply ByteArray.ext
  apply Array.ext_getElem?
  intro i
  rw [← Bytes.getElem?_eq_data, ← Bytes.getElem?_eq_data]
  by_cases hi : i < rows * (b.width.toNat * n)
  · obtain ⟨j, y, ⟨hj, hy⟩, rfl⟩ := pixel_of_place hi
    obtain ⟨k, x, ⟨hk, hx⟩, rfl⟩ := pixel_of_place hj
    have hplace : y * (b.width.toNat * n) + (x * n + k) = (y * b.width.toNat + x) * n + k := by
      rw [Nat.add_mul, Nat.mul_assoc, Nat.add_assoc]
    rw [hplace, h.byte x y k hx hy hk, h'.byte x y k hx hy hk]
  · rw [getElem?_neg bytes i (by rw [h.size_eq]; exact hi),
      getElem?_neg bytes' i (by rw [h'.size_eq]; exact hi)]

theorem tightBytes_of_error {fault : BufferFault} (hv : b.validate channels = .error fault) :
    b.tightBytes channels = .error (.refused fault) := by
  unfold tightBytes
  rw [hv]

/-- The bytes of a checked buffer are borrowed when it has no gaps, and copied otherwise. -/
theorem borrows_iff {tight : TightBytes} (h : b.tightBytes channels = .ok tight) :
    (∃ bytes, tight = .borrowed bytes) ↔ b.isTight channels = true := by
  unfold tightBytes at h
  split at h
  · cases h
  split at h
  · rename_i ht
    dsimp only at h
    split at h
    · cases h
      exact ⟨fun _ => ht, fun _ => ⟨_, rfl⟩⟩
    · cases h
  · rename_i ht
    cases hpack : b.pack channels with
    | error =>
      rw [hpack] at h
      cases h
    | ok bytes =>
      rw [hpack] at h
      cases h
      exact ⟨fun ⟨_, hborrowed⟩ => (by cases hborrowed), fun h => absurd h ht⟩

/-- A buffer of pixels without bytes, whose rows start at the same place. -/
def IsHollow (b : Buffer) (channels : UInt64) : Prop :=
  0 < b.width.toNat ∧ 0 < b.height.toNat ∧ channels = 0 ∧ b.pixelStride = 0 ∧ b.rowStride = 0

/-- A hollow buffer asks nothing of its data. -/
theorem covered_of_isHollow (h : b.IsHollow channels) : b.Covered channels.toNat := by
  obtain ⟨hw, hh, hnone, hpixel, hrow⟩ := h
  refine ⟨hw, hh, Nat.le_of_eq ?_, Nat.le_of_eq ?_, ?_⟩
  · rw [hnone, hpixel]
  · rw [hpixel, hrow]
    exact Nat.mul_zero b.width.toNat
  · rw [hnone, hpixel, hrow]
    exact Nat.zero_le b.data.size

/-- Of the buffers that pass, only the hollow ones have rows of no bytes. -/
theorem isHollow_of_rowStride (hc : b.Covered channels.toNat) (hzero : b.rowStride = 0) :
    b.IsHollow channels := by
  obtain ⟨ht, hnone⟩ := isTight_of_rowStride hc hzero
  have hchannels : channels = 0 := UInt64.toNat_inj.mp hnone
  exact ⟨hc.width_pos, hc.height_pos, hchannels, (isTight_iff.mp ht).1.trans hchannels, hzero⟩

/-- Borrowing never crashes. Copying crashes on hollow buffers, and on no others it differs from
borrowing: both give the same bytes, or the same fault. Bytes are borrowed when there are no gaps
between pixels and rows. -/
theorem borrowing_agrees_with_copying (b : Buffer) (channels : UInt64)
    (hm : b.data.size ≤ addressLimit) :
    (∀ crash, b.tightBytes channels ≠ .error (.crashed crash)) ∧
      (∀ crash, b.repack channels = .error (.crashed crash) ↔
        crash = .rowsOfNoBytes ∧ b.IsHollow channels) ∧
      (¬ b.IsHollow channels →
        b.repack channels = (b.tightBytes channels).map TightBytes.bytes) ∧
      ∀ tight, b.tightBytes channels = .ok tight →
        ((∃ bytes, tight = .borrowed bytes) ↔
          b.pixelStride = channels ∧
            b.rowStride.toNat = b.width.toNat * channels.toNat) := by
  have hborrows : ∀ tight, b.tightBytes channels = .ok tight →
      ((∃ bytes, tight = .borrowed bytes) ↔
        b.pixelStride = channels ∧ b.rowStride.toNat = b.width.toNat * channels.toNat) :=
    fun tight h => (borrows_iff h).trans isTight_iff
  cases hv : b.validate channels with
  | error fault =>
    have hfull : ¬ b.IsHollow channels := fun hhollow => by
      have hpass := (validate_eq_ok_iff hm).mpr (covered_of_isHollow hhollow)
      rw [hv] at hpass
      cases hpass
    refine ⟨?_, ?_, ?_, hborrows⟩
    · rw [tightBytes_of_error hv]
      nofun
    · intro crash
      rw [repack_of_error hv]
      exact ⟨nofun, fun h => absurd h.2 hfull⟩
    · intro _
      rw [repack_of_error hv, tightBytes_of_error hv]
      rfl
  | ok =>
    have hc := covered_of_validate hv hm
    obtain ⟨tight, htight, hfills⟩ := tightBytes_of_covered hv hc
    refine ⟨?_, ?_, ?_, hborrows⟩
    · rw [htight]
      nofun
    · intro crash
      by_cases hzero : b.rowStride = 0
      · rw [repack_of_ok hv, pack_of_rowStride hzero]
        constructor
        · intro h
          cases h
          exact ⟨rfl, isHollow_of_rowStride hc hzero⟩
        · rintro ⟨rfl, _⟩
          rfl
      · obtain ⟨bytes, hcopy, _⟩ := repack_of_covered hv hc hzero
        rw [hcopy]
        exact ⟨nofun, fun h => absurd h.2.2.2.2.2 hzero⟩
    · intro hfull
      obtain ⟨bytes, hcopy, hcopied⟩ :=
        repack_of_covered hv hc fun hzero => hfull (isHollow_of_rowStride hc hzero)
      rw [hcopy, htight, hcopied.unique hfills]
      rfl

/-- A buffer without gaps is borrowed, and a copy of it has the bytes that were borrowed. -/
theorem a_gapless_buffer_is_borrowed :
    let b : Buffer := ⟨2, 2, 2, 1, ⟨#[1, 2, 3, 4, 5]⟩⟩
    b.data.size ≤ addressLimit ∧
      (∀ tight, b.tightBytes 1 = .ok tight → ∃ bytes, tight = .borrowed bytes) ∧
      b.repack 1 = (b.tightBytes 1).map TightBytes.bytes := by
  intro b
  have h := borrowing_agrees_with_copying b 1 (by decide)
  refine ⟨by decide, ?_, h.2.2.1 fun hhollow => absurd hhollow.2.2.1 (by decide)⟩
  intro tight htight
  exact (h.2.2.2 tight htight).mpr ⟨by decide, by decide⟩

/-- A pixel of no bytes is borrowed from empty data. A copy of it is a crash, for its rows are cut
from the data by a stride of no bytes. -/
theorem a_hollow_pixel_is_borrowed_but_not_copied :
    let b : Buffer := ⟨1, 1, 0, 0, .empty⟩
    b.validate 0 = .ok () ∧ b.tightBytes 0 = .ok (.borrowed .empty) ∧
      b.repack 0 = .error (.crashed .rowsOfNoBytes) := by
  intro b
  exact ⟨rfl, rfl, rfl⟩

end PictureInPicture.Buffer
