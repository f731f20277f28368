-- What the check of the declared sizes is worth. It looks at three sizes only, while the textures
-- of a planar source have sizes that are made from them, and the bytes of a row are counted in 32
-- bits. On a device whose textures have less than 2 ^ 30 pixels on a side both go well.
import PictureInPicture.Gpu.Surface
import PictureInPicture.Gpu.Texture
import PictureInPicture.Proofs.Buffer.Repacking
import PictureInPicture.Proofs.Config.Accepted

namespace PictureInPicture

theorem Size.fits_iff {s : Size} {limit : UInt32} :
    s.fits limit = true ↔ s.width.toNat ≤ limit.toNat ∧ s.height.toNat ≤ limit.toNat := by
  unfold fits
  rw [Bool.and_eq_true, decide_eq_true_eq, decide_eq_true_eq, UInt32.le_iff_toNat_le,
    UInt32.le_iff_toNat_le]

/-! ## Color planes -/

namespace Subsampling

/-- There is one column of colors for two columns of luma. -/
def halvesColumns : Subsampling → Bool
  | yuv420 | yuv422 => true
  | yuv444 => false

/-- There is one row of colors for two rows of luma. -/
def halvesRows : Subsampling → Bool
  | yuv420 => true
  | yuv422 | yuv444 => false

/-- A side of a color plane next to the same side of the luma plane: it is the same, or half of it
with an odd one rounded up. -/
def Reduces (halved : Bool) (luma chroma : UInt32) : Prop :=
  if halved then luma.toNat ≤ 2 * chroma.toNat ∧ 2 * chroma.toNat ≤ luma.toNat + 1
  else chroma = luma

theorem toNat_half (side : UInt32) : (half side).toNat = (side.toNat + 1) / 2 := by
  have hword := side.toNat_lt
  have htwo : (2 : UInt32).toNat = 2 := rfl
  unfold half
  rw [UInt32.toNat_add, UInt32.toNat_div, UInt32.toNat_mod, htwo]
  omega

theorem reduces_half (side : UInt32) : Reduces true side (half side) := by
  unfold Reduces
  rw [if_pos rfl, toNat_half]
  omega

theorem reduces_chromaSize (s : Subsampling) (luma : Size) :
    Reduces s.halvesColumns luma.width (s.chromaSize luma).width ∧
      Reduces s.halvesRows luma.height (s.chromaSize luma).height := by
  cases s with
  | yuv420 => exact ⟨reduces_half luma.width, reduces_half luma.height⟩
  | yuv422 => exact ⟨reduces_half luma.width, rfl⟩
  | yuv444 => exact ⟨rfl, rfl⟩

/-- A side of a color plane is no longer than that of its luma plane, and it has a pixel. -/
theorem Reduces.within {halved : Bool} {luma chroma : UInt32} {limit : Nat}
    (h : Reduces halved luma chroma) (hpos : 1 ≤ luma.toNat) (hle : luma.toNat ≤ limit) :
    1 ≤ chroma.toNat ∧ chroma.toNat ≤ limit := by
  unfold Reduces at h
  split at h
  · omega
  · rw [h]
    exact ⟨hpos, hle⟩

end Subsampling

namespace Gpu

/-! ## The check -/

section

variable {α : Type} {limit : UInt32} {c : Config α}

theorem checkLimits_eq_ok :
    checkLimits limit c = .ok () ↔ ∀ entry ∈ checkedSizes c, entry.2.fits limit = true := by
  unfold checkLimits
  split
  · rename_i hnone
    have hall := List.find?_eq_none.mp hnone
    simp only [Bool.not_eq_true', Bool.not_eq_false] at hall
    exact ⟨fun _ => hall, fun _ => rfl⟩
  · rename_i entry hsome
    constructor
    · nofun
    · intro hall
      have hlarge := List.find?_some hsome
      have hfit := hall _ (List.mem_of_find?_eq_some hsome)
      exact absurd hfit (by simpa using hlarge)

/-- The check names the first size that is too large. -/
theorem checkLimits_eq_error {reason : String} :
    checkLimits limit c = .error reason ↔
      ∃ before name size after, checkedSizes c = before ++ (name, size) :: after ∧
        (∀ entry ∈ before, entry.2.fits limit = true) ∧ size.fits limit = false ∧
        reason = "GPU max texture dimension is " ++ toString limit ++ ", " ++ name ++ " is " ++
          size.text := by
  constructor
  · intro h
    unfold checkLimits at h
    split at h
    · cases h
    · rename_i name size hsome
      cases h
      obtain ⟨hsize, before, after, hsplit, hbefore⟩ := List.find?_eq_some_iff_append.mp hsome
      refine ⟨before, name, size, after, hsplit, ?_, by simpa using hsize, rfl⟩
      intro entry hentry
      simpa using hbefore entry hentry
  · rintro ⟨before, name, size, after, hsplit, hbefore, hsize, rfl⟩
    unfold checkLimits
    rw [hsplit, List.find?_append, List.find?_eq_none.mpr, Option.none_or, List.find?_cons_of_pos]
    · simpa using hsize
    · intro entry hentry
      simpa using hbefore entry hentry

/-- Of settings that pass the check the sizes of both sources fit. -/
theorem fits_of_checkLimits (h : checkLimits limit c = .ok ()) (role : Role) :
    (c.sources.get role).size.fits limit = true := by
  have hall := checkLimits_eq_ok.mp h
  cases role with
  | primary => exact hall ("primary", _) (by simp [checkedSizes, Both.get])
  | secondary => exact hall ("secondary", _) (by simp [checkedSizes, Both.get])

end

/-! ## Textures -/

namespace SourceTextures

variable {source : Source} {t : PlaneTexture}

/-- A texture is as large as its source, or it holds the colors of one. -/
theorem size_of_allocate (h : t ∈ (allocate source).textures) :
    t.size = source.size ∨ ∃ s, source.format = .planar s ∧ t.size = s.chromaSize source.size := by
  unfold allocate at h
  split at h
  · exact .inl (congrArg PlaneTexture.size (List.mem_singleton.mp h))
  · exact .inl (congrArg PlaneTexture.size (List.mem_singleton.mp h))
  · rename_i s hformat
    simp only [textures, List.mem_cons, List.not_mem_nil, or_false] at h
    rcases h with rfl | rfl | rfl
    · exact .inl rfl
    · exact .inr ⟨s, hformat, rfl⟩
    · exact .inr ⟨s, hformat, rfl⟩

/-- A pixel of a texture has one byte or four. -/
theorem channels_of_allocate (h : t ∈ (allocate source).textures) :
    t.format.channels = 4 ∨ t.format.channels = 1 := by
  unfold allocate at h
  split at h
  · rw [List.mem_singleton.mp h]
    exact .inl rfl
  · rw [List.mem_singleton.mp h]
    exact .inl rfl
  · simp only [textures, List.mem_cons, List.not_mem_nil, or_false] at h
    rcases h with rfl | rfl | rfl <;> exact .inr rfl

/-- The luma plane of a planar source comes first, and then its two color planes. -/
theorem allocate_planar {s : Subsampling} (h : source.format = .planar s) :
    ∃ y u v, allocate source = .planar y u v ∧ y.size = source.size ∧
      u.size = s.chromaSize source.size ∧ v.size = s.chromaSize source.size := by
  unfold allocate
  rw [h]
  exact ⟨_, _, _, rfl, rfl, rfl, rfl⟩

/-- The textures of a source with pixels have pixels, and no more on a side than the source. -/
theorem within_of_allocate {limit : UInt32} (h : t ∈ (allocate source).textures)
    (hpixels : source.size.isEmpty = false) (hfits : source.size.fits limit = true) :
    (1 ≤ t.size.width.toNat ∧ t.size.width.toNat ≤ limit.toNat) ∧
      1 ≤ t.size.height.toNat ∧ t.size.height.toNat ≤ limit.toNat := by
  obtain ⟨hwidth, hheight⟩ := Size.isEmpty_eq_false_iff.mp hpixels
  obtain ⟨hwidth', hheight'⟩ := Size.fits_iff.mp hfits
  rcases size_of_allocate h with hsize | ⟨s, _, hsize⟩
  · rw [hsize]
    exact ⟨⟨hwidth, hwidth'⟩, hheight, hheight'⟩
  · rw [hsize]
    obtain ⟨hcolumns, hrows⟩ := s.reduces_chromaSize source.size
    exact ⟨hcolumns.within hwidth hwidth', hrows.within hheight hheight'⟩

end SourceTextures

/-! ## Writes -/

namespace PlaneTexture

variable {t : PlaneTexture} {b : Buffer} {role : Role} {w : TextureWrite}

/-- The bytes of a row do not leave 32 bits if the texture is not too wide. -/
theorem toNat_bytesPerRow (hwidth : t.size.width.toNat < 2 ^ 30)
    (hchannels : t.format.channels = 4 ∨ t.format.channels = 1) :
    (t.size.width * t.format.channels).toNat =
      t.size.width.toNat * t.format.channels.toNat := by
  rw [UInt32.toNat_mul]
  apply Nat.mod_eq_of_lt
  rcases hchannels with hfour | hone
  · rw [hfour]
    change t.size.width.toNat * 4 < 2 ^ 32
    omega
  · rw [hone]
    change t.size.width.toNat * 1 < 2 ^ 32
    omega

/-- A buffer of the size of a texture that passes its check is written. -/
theorem write_of_validate (hsize : b.size = t.size) (hb : b.data.size ≤ addressLimit)
    (hv : b.validate t.format.channels.toUInt64 = .ok ()) (role : Role) :
    ∃ bytes, t.write role b =
      .ok ⟨role, t, bytes, t.size.width * t.format.channels, t.size.height⟩ := by
  obtain ⟨tight, htight, _⟩ := Buffer.tightBytes_of_covered hv (Buffer.covered_of_validate hv hb)
  unfold write checkPlane
  rw [if_pos hsize, htight]
  exact ⟨_, rfl⟩

/-- A write has the pixels of a buffer of its size that has passed the check. -/
theorem covered_of_write (h : t.write role b = .ok w) (hb : b.data.size ≤ addressLimit) :
    b.size = t.size ∧ b.Covered t.format.channels.toNat ∧
      b.Fills t.format.channels.toNat w.bytes ∧
      w.bytesPerRow = t.size.width * t.format.channels ∧ w.rows = t.size.height := by
  unfold write checkPlane at h
  by_cases hsize : b.size = t.size
  · rw [if_pos hsize] at h
    dsimp only at h
    cases htight : b.tightBytes t.format.channels.toUInt64 with
    | error =>
      rw [htight] at h
      cases h
    | ok tight =>
      rw [htight] at h
      cases h
      cases hv : b.validate t.format.channels.toUInt64 with
      | error =>
        rw [Buffer.tightBytes_of_error hv] at htight
        cases htight
      | ok =>
        have hc := Buffer.covered_of_validate hv hb
        obtain ⟨tight', htight', hfills⟩ := Buffer.tightBytes_of_covered hv hc
        rw [htight] at htight'
        cases htight'
        rw [UInt32.toNat_toUInt64] at hc hfills
        exact ⟨hsize, hc, hfills, rfl, rfl⟩
  · rw [if_neg hsize] at h
    cases h

/-- The rows of a write have all the bytes that the device is told, and each byte of the buffer is
in its place in its row. -/
theorem rows_of_write (h : t.write role b = .ok w) (hb : b.data.size ≤ addressLimit)
    (hwidth : t.size.width.toNat < 2 ^ 30)
    (hchannels : t.format.channels = 4 ∨ t.format.channels = 1) :
    w.bytesPerRow.toNat = t.size.width.toNat * t.format.channels.toNat ∧
      w.bytes.size = w.rows.toNat * w.bytesPerRow.toNat ∧
      ∀ x y k, x < t.size.width.toNat → y < t.size.height.toNat →
        k < t.format.channels.toNat → ∃ value, b.byte? x y k = some value ∧
          w.bytes[y * w.bytesPerRow.toNat + (x * t.format.channels.toNat + k)]? = some value := by
  obtain ⟨hsize, hc, hfills, hrow, hrows⟩ := covered_of_write h hb
  have hbytes := toNat_bytesPerRow hwidth hchannels
  have hw : b.width = t.size.width := congrArg Size.width hsize
  have hh : b.height = t.size.height := congrArg Size.height hsize
  rw [hrow, hbytes, hrows, ← hw, ← hh]
  refine ⟨rfl, hfills.size_eq, ?_⟩
  intro x y k hx hy hk
  obtain ⟨value, hvalue⟩ := Buffer.byte?_of_covered hc hx hy hk
  refine ⟨value, hvalue, ?_⟩
  have hplace : y * (b.width.toNat * t.format.channels.toNat) +
      (x * t.format.channels.toNat + k) =
      (y * b.width.toNat + x) * t.format.channels.toNat + k := by
    rw [Nat.add_mul, Nat.mul_assoc, Nat.add_assoc]
  rw [hplace, hfills.byte x y k hx hy hk, hvalue]

end PlaneTexture

/-! ## The law -/

/-- Settings with pixels pass the check of a device if and only if the output and both sources fit
it, and otherwise the first of the three that does not is named. After the check every texture can
be made: each of its sides has a pixel and no more than the device allows, and those of the colors
are half as long as those of luma, rounded up, where they are halved. A buffer that suits a texture
is written, and the length of a row that the device is told is that of the rows that are handed to
it. -/
theorem textures_fit_a_device_that_passes_the_check {α : Type} [Scalar α] (c : Config α)
    (hc : c.validate = .ok ()) (limit : UInt32) (hlimit : limit.toNat < 2 ^ 30) :
    let sizes := [("output", c.output), ("primary", c.sources.primary.size),
      ("secondary", c.sources.secondary.size)]
    let fits := fun size : Size =>
      size.width.toNat ≤ limit.toNat ∧ size.height.toNat ≤ limit.toNat
    (checkLimits limit c = .ok () ↔
        fits c.output ∧ fits c.sources.primary.size ∧ fits c.sources.secondary.size) ∧
      (∀ reason, checkLimits limit c = .error reason ↔
        ∃ before name size after, sizes = before ++ (name, size) :: after ∧
          (∀ entry ∈ before, fits entry.2) ∧ ¬ fits size ∧
          reason = "GPU max texture dimension is " ++ toString limit ++ ", " ++ name ++ " is " ++
            size.text) ∧
      (checkLimits limit c = .ok () → ∀ role,
        let source := c.sources.get role
        (∀ t ∈ (SourceTextures.allocate source).textures,
          (1 ≤ t.size.width.toNat ∧ t.size.width.toNat ≤ limit.toNat) ∧
            (1 ≤ t.size.height.toNat ∧ t.size.height.toNat ≤ limit.toNat) ∧
            ∀ b : Buffer, b.data.size ≤ addressLimit →
              (b.size = t.size → b.validate t.format.channels.toUInt64 = .ok () →
                ∃ w, t.write role b = .ok w) ∧
              ∀ w, t.write role b = .ok w →
                w.bytesPerRow.toNat = t.size.width.toNat * t.format.channels.toNat ∧
                  w.bytes.size = w.rows.toNat * w.bytesPerRow.toNat ∧
                  ∀ x y k, x < t.size.width.toNat → y < t.size.height.toNat →
                    k < t.format.channels.toNat → ∃ value, b.byte? x y k = some value ∧
                      w.bytes[y * w.bytesPerRow.toNat +
                        (x * t.format.channels.toNat + k)]? = some value) ∧
          ∀ s, source.format = .planar s → ∃ y u v,
            SourceTextures.allocate source = .planar y u v ∧ y.size = source.size ∧
              ∀ t ∈ [u, v], Subsampling.Reduces s.halvesColumns y.size.width t.size.width ∧
                Subsampling.Reduces s.halvesRows y.size.height t.size.height) := by
  intro sizes fits
  have hfits : ∀ size : Size, size.fits limit = true ↔ fits size := fun _ => Size.fits_iff
  refine ⟨?_, ?_, ?_⟩
  · rw [checkLimits_eq_ok]
    simp only [checkedSizes, List.forall_mem_cons, List.not_mem_nil, hfits]
    simp
  · intro reason
    simp only [checkLimits_eq_error, ← Bool.not_eq_true, hfits]
    rfl
  · intro hok role source
    have hpixels := (Config.pixels_of_validate hc).source role
    refine ⟨?_, ?_⟩
    · intro t ht
      obtain ⟨hwidth, hheight⟩ :=
        SourceTextures.within_of_allocate ht hpixels (fits_of_checkLimits hok role)
      refine ⟨hwidth, hheight, ?_⟩
      intro b hb
      refine ⟨?_, ?_⟩
      · intro hsize hv
        obtain ⟨bytes, hwrite⟩ := PlaneTexture.write_of_validate hsize hb hv role
        exact ⟨_, hwrite⟩
      · intro w hwrite
        exact PlaneTexture.rows_of_write hwrite hb (by omega)
          (SourceTextures.channels_of_allocate ht)
    · intro s hformat
      obtain ⟨y, u, v, hallocate, hy, hu, hv⟩ := SourceTextures.allocate_planar hformat
      refine ⟨y, u, v, hallocate, hy, ?_⟩
      have hreduces := s.reduces_chromaSize source.size
      simp only [List.forall_mem_cons, List.not_mem_nil, false_implies, implies_true, and_true]
      rw [hy, hu, hv]
      exact ⟨hreduces, hreduces⟩

/-- A planar source with odd sides on a device that just fits it. Its color planes are three columns
wide and have all five rows, and a buffer with a byte of padding in each row is written without
it. -/
theorem color_planes_of_odd_sides_fit :
    let sources : Both Source := ⟨⟨⟨4, 2⟩, .packed .rgba⟩, ⟨⟨5, 5⟩, .planar .yuv422⟩⟩
    let c : Config Float32 := { (.standard : Config Float32) with sources, output := ⟨5, 5⟩ }
    let t : PlaneTexture := ⟨.uTexture, ⟨3, 5⟩, .r8Unorm⟩
    let b : Buffer := ⟨3, 5, 4, 1, Buffer.replicate ⟨#[7, 8, 9, 0]⟩ 5⟩
    c.validate = .ok () ∧ checkLimits 5 c = .ok () ∧
      t ∈ (SourceTextures.allocate sources.secondary).textures ∧
      ∃ w, t.write .secondary b = .ok w ∧ w.bytesPerRow.toNat = 3 ∧ w.bytes.size = 5 * 3 ∧
        w.bytes[4 * 3 + (2 * 1 + 0)]? = some 9 := by
  intro sources c t b
  have hc : c.validate = .ok () :=
    Config.validate_eq_ok.mpr ⟨⟨fun role => by cases role <;> rfl, rfl⟩,
      ⟨by decide +kernel, by decide +kernel, by decide +kernel, by decide +kernel⟩⟩
  have hok : checkLimits 5 c = .ok () := checkLimits_eq_ok.mpr (by decide)
  have hmem : t ∈ (SourceTextures.allocate sources.secondary).textures := by decide
  obtain ⟨_, _, hallocated⟩ := textures_fit_a_device_that_passes_the_check c hc 5 (by decide)
  obtain ⟨htextures, _⟩ := hallocated hok .secondary
  obtain ⟨_, _, hwrites⟩ := htextures t hmem
  have hsmall : b.data.size ≤ addressLimit := by decide +kernel
  have hv : b.validate t.format.channels.toUInt64 = .ok () :=
    (Buffer.validate_eq_ok_iff hsmall).mpr
      ⟨by decide, by decide, by decide, by decide, by decide +kernel⟩
  obtain ⟨hwritten, hrows⟩ := hwrites b hsmall
  obtain ⟨w, hwrite⟩ := hwritten rfl hv
  obtain ⟨hrow, hbytes, hplaces⟩ := hrows w hwrite
  have hrow3 : w.bytesPerRow.toNat = 3 := hrow
  obtain ⟨value, hvalue, hplace⟩ := hplaces 2 4 0 (by decide) (by decide) (by decide)
  have hbyte : b.byte? 2 4 0 = some 9 := by decide +kernel
  rw [hbyte] at hvalue
  cases hvalue
  rw [hrow3] at hplace hbytes
  have hcount : w.rows.toNat = 5 := by
    obtain ⟨_, _, _, _, hheight⟩ := PlaneTexture.covered_of_write hwrite hsmall
    rw [hheight]
    rfl
  rw [hcount] at hbytes
  exact ⟨hc, hok, hmem, w, hwrite, hrow3, hbytes, hplace⟩

end Gpu

end PictureInPicture
