-- A background at its own scale, over exact rationals. The output has the size of the turned source,
-- so the middles of its pixels fall on the middles of the texels, and the picture is the source
-- turned clockwise, texel by texel.
import PictureInPicture.Proofs.Geometry.Framing
import PictureInPicture.Proofs.Geometry.Interpolation
import PictureInPicture.Proofs.Raster.Ends

namespace PictureInPicture

/-! ## Turned places -/

/-- A picture of the size has a pixel in the column and the row. -/
def Size.Has (size : Size) (p : Nat × Nat) : Prop :=
  p.1 < size.width.toNat ∧ p.2 < size.height.toNat

instance (size : Size) (p : Nat × Nat) : Decidable (size.Has p) := by
  unfold Size.Has; infer_instance

namespace Rotation

variable (r : Rotation) {size : Size} {p : Nat × Nat}

/-- The column and the row of a source that a turned source shows in a column and a row. -/
def origin (size : Size) (p : Nat × Nat) : Nat × Nat :=
  match r with
  | deg0 => p
  | deg90 => (p.2, size.height.toNat - 1 - p.1)
  | deg180 => (size.width.toNat - 1 - p.1, size.height.toNat - 1 - p.2)
  | deg270 => (size.width.toNat - 1 - p.2, p.1)

/-- The column and the row to which a turn takes a column and a row of a source. -/
def target (size : Size) (p : Nat × Nat) : Nat × Nat :=
  match r with
  | deg0 => p
  | deg90 => (size.height.toNat - 1 - p.2, p.1)
  | deg180 => (size.width.toNat - 1 - p.1, size.height.toNat - 1 - p.2)
  | deg270 => (p.2, size.width.toNat - 1 - p.1)

theorem has_turned : (size.turned r).Has p ↔
    if r.swapsAxes then p.1 < size.height.toNat ∧ p.2 < size.width.toNat else size.Has p := by
  cases r <;> rfl

theorem has_origin (h : (size.turned r).Has p) : size.Has (r.origin size p) := by
  rw [has_turned] at h
  unfold Size.Has at h ⊢
  cases r <;> simp [swapsAxes, origin] at h ⊢ <;> omega

theorem has_target (h : size.Has p) : (size.turned r).Has (r.target size p) := by
  rw [has_turned]
  unfold Size.Has at h ⊢
  cases r <;> simp [swapsAxes, target] at h ⊢ <;> omega

theorem origin_target (h : size.Has p) : r.origin size (r.target size p) = p := by
  obtain ⟨x, y⟩ := p
  unfold Size.Has at h
  cases r <;> simp [origin, target] at h ⊢ <;> omega

theorem target_origin (h : (size.turned r).Has p) : r.target size (r.origin size p) = p := by
  obtain ⟨x, y⟩ := p
  rw [has_turned] at h
  unfold Size.Has at h
  cases r <;> simp [swapsAxes, origin, target] at h ⊢ <;> omega

/-- Every pixel of a source is shown by the turned source, and in one place only. -/
theorem existsUnique_origin {q : Nat × Nat} (h : size.Has q) :
    ∃! p, (size.turned r).Has p ∧ r.origin size p = q := by
  refine ⟨r.target size q, ⟨r.has_target h, r.origin_target h⟩, ?_⟩
  rintro p ⟨hp, rfl⟩
  exact (r.target_origin hp).symm

end Rotation

/-! ## Texels -/

/-- The middle of the texel in a column and a row. -/
def texelCenter (size : Size) (p : Nat × Nat) : TexPoint ℚ :=
  ⟨(p.1 + 1 / 2) / size.width.toNat, (p.2 + 1 / 2) / size.height.toNat⟩

section

variable {size : Size} {p : Nat × Nat}

theorem texelIndex_center {i : Nat} {side : UInt32} (h : i < side.toNat) :
    texelIndex ((i + 1 / 2) / side.toNat : ℚ) side = .ok i := by
  have hpos : (0 : ℚ) < side.toNat := by exact_mod_cast Nat.zero_lt_of_lt h
  have hside : side ≠ 0 := by
    rintro rfl
    exact Nat.not_lt_zero i h
  have hwhole : Scalar.whole ((i + 1 / 2) / side.toNat * side.toNat : ℚ) = i := by
    rw [Scalar.whole_rat, div_mul_cancel₀ _ hpos.ne', Nat.floor_eq_iff (by positivity)]
    constructor <;> linarith
  unfold texelIndex
  rw [if_neg hside]
  change Except.ok (min (Scalar.whole ((i + 1 / 2) / side.toNat * side.toNat : ℚ)) _) = _
  rw [hwhole, min_eq_left (by omega)]

theorem texelOffset_center (h : size.Has p) :
    texelOffset size (texelCenter size p) = .ok (p.2 * size.width.toNat + p.1) := by
  unfold texelOffset texelCenter
  dsimp only
  rw [texelIndex_center h.1, texelIndex_center h.2]

/-- A turn takes the middles of the pixels of a turned source to the middles of its texels. -/
theorem Rotation.apply_texelCenter (r : Rotation) (h : (size.turned r).Has p) :
    r.apply (texelCenter (size.turned r) p) = texelCenter size (r.origin size p) := by
  have hrest : ∀ {i side : Nat}, i < side →
      1 - ((i : ℚ) + 1 / 2) / side = (((side - 1 - i : Nat) : ℚ) + 1 / 2) / side := by
    intro i side hi
    have hpos : (side : ℚ) ≠ 0 := by exact_mod_cast Nat.ne_zero_of_lt hi
    rw [Nat.cast_sub (by omega), Nat.cast_sub (by omega), eq_div_iff hpos, sub_mul,
      div_mul_cancel₀ _ hpos]
    push_cast
    ring
  obtain ⟨hx, hy⟩ := h
  cases r with
  | deg0 => rfl
  | deg90 => exact congrArg (TexPoint.mk _) (hrest hx)
  | deg180 => exact congrArg₂ TexPoint.mk (hrest hx) (hrest hy)
  | deg270 => exact congrArg (TexPoint.mk · _) (hrest hy)

/-- The middle of a pixel of the output is the middle of a texel of the whole window. -/
theorem point_locate_center (output : Size) (p : Nat × Nat) :
    let place := Rect.full.locate (center output p.1 p.2)
    Window.full.point place.1 place.2 = texelCenter output p := by
  change (⟨0 + ((p.1 + 1 / 2) / output.width.toNat * 2 - 1 - -1) / 2 * (1 - 0),
    1 + (1 - (p.2 + 1 / 2) / output.height.toNat * 2 - -1) / 2 * (0 - 1)⟩ : TexPoint ℚ) = _
  unfold texelCenter
  congr 1 <;> ring

/-- A background at its own scale shows the middle of a texel at every pixel. -/
theorem Quad.uvAtPixel_fill (hs : size.isEmpty = false) (r : Rotation)
    (h : (size.turned r).Has p) :
    (fill size (size.turned r) r).uvAtPixel (size.turned r) p.1 p.2 =
      texelCenter size (r.origin size p) := by
  unfold fill
  rw [Window.fit_self hs]
  change (of .full .full r).uvAt _ _ = _
  rw [uvAt_eq]
  exact (congrArg r.apply (point_locate_center _ p)).trans (r.apply_texelCenter h)

/-- The middle of a pixel lies between the ends of an axis. -/
theorem middle_between {i side : Nat} (h : i < side) :
    0 ≤ ((i : ℚ) + 1 / 2) / side ∧ ((i : ℚ) + 1 / 2) / side < 1 := by
  have hpos : (0 : ℚ) < side := by exact_mod_cast Nat.zero_lt_of_lt h
  have hlt : (i : ℚ) + 1 ≤ side := by exact_mod_cast h
  rw [div_lt_one hpos]
  exact ⟨by positivity, by linarith⟩

/-- The rectangle that is the whole output covers all of its pixels. -/
theorem Span.covers_full {output : Size} (h : output.Has p) :
    (of (.full : Rect ℚ) output).Covers p.1 p.2 := by
  obtain ⟨hx, hx'⟩ := middle_between h.1
  obtain ⟨hy, hy'⟩ := middle_between h.2
  rw [covers_iff]
  refine ⟨h.1, h.2, ?_⟩
  change -1 ≤ ((p.1 : ℚ) + 1 / 2) / output.width.toNat * 2 - 1 ∧
    ((p.1 : ℚ) + 1 / 2) / output.width.toNat * 2 - 1 < -1 + 2 ∧
    -1 < 1 - ((p.2 : ℚ) + 1 / 2) / output.height.toNat * 2 ∧
    1 - ((p.2 : ℚ) + 1 / 2) / output.height.toNat * 2 ≤ -1 + 2
  refine ⟨?_, ?_, ?_, ?_⟩ <;> linarith

end

/-! ## Colors -/

theorem Scalar.round_natCast (n : Nat) : round (n : ℚ) = n := by
  have hwhole : whole (n : ℚ) = n := by rw [whole_rat, Nat.floor_natCast]
  have hrest : ¬ half ≤ (n : ℚ) - Scalar.ofNat n := by
    change ¬ (1 / 2 : ℚ) ≤ n - n
    norm_num
  unfold round
  dsimp only
  rw [hwhole, if_neg hrest]

namespace Color

variable {src dst : Color ℚ}

/-- Nothing of what is below shows through. -/
theorem atop_opaque (h : src.alpha = 1) : src.atop dst = src := by
  obtain ⟨red, green, blue, alpha⟩ := src
  cases h
  change (⟨red * 1 + dst.red * (1 - 1), green * 1 + dst.green * (1 - 1),
    blue * 1 + dst.blue * (1 - 1), 1 + dst.alpha * (1 - 1)⟩ : Color ℚ) = _
  simp

/-- The byte of a level is the byte that it was made of. -/
theorem byteOfLevel_levelOfByte_rat (b : UInt8) : byteOfLevel (levelOfByte b : ℚ) = b := by
  have hlt : (b.toNat : ℚ) ≤ 255 := by exact_mod_cast Nat.le_of_lt_succ b.toNat_lt
  have hlevel : Scalar.clamp ((b.toNat : ℚ) / 255) 0 1 = (b.toNat : ℚ) / 255 :=
    Scalar.clamp_rat (by positivity) (by linarith)
  change (Scalar.round (Scalar.clamp ((b.toNat : ℚ) / 255) 0 1 * 255)).toUInt8 = b
  rw [hlevel, div_mul_cancel₀ _ (by norm_num), Scalar.round_natCast]
  exact UInt8.ofNat_toNat

/-- An opaque color that bytes stand for has these bytes. -/
theorem bytes_levelOfByte (red green blue : UInt8) :
    (⟨levelOfByte red, levelOfByte green, levelOfByte blue, 1⟩ : Color ℚ).bytes =
      ⟨#[red, green, blue, 255]⟩ := by
  have halpha : byteOfLevel (1 : ℚ) = 255 := by decide +kernel
  unfold bytes
  dsimp only
  rw [byteOfLevel_levelOfByte_rat, byteOfLevel_levelOfByte_rat, byteOfLevel_levelOfByte_rat,
    halpha]

end Color

/-! ## Pictures -/

/-- A texture that holds a buffer shows the colors of its pixels at the middles of its texels. -/
theorem Texture.sample_center {b : Buffer} {order : ChannelOrder} {texels : ByteArray}
    (hfills : b.Fills packedChannels texels) {p : Nat × Nat} (hp : b.size.Has p) (opacity : ℚ) :
    ∃ red green blue, order.pick (b.byte? p.1 p.2) = (some red, some green, some blue) ∧
      (packed b.size order texels).sample (texelCenter b.size p) opacity =
        .ok ⟨levelOfByte red, levelOfByte green, levelOfByte blue, opacity⟩ := by
  have hpixels : b.size.isEmpty = false :=
    Size.isEmpty_eq_false_iff.mpr ⟨Nat.zero_lt_of_lt hp.1, Nat.zero_lt_of_lt hp.2⟩
  have halike : (packed b.size order texels).Alike (.blank ⟨b.size, .packed order⟩) := by
    refine ⟨rfl, rfl, ?_⟩
    rw [size_zeros, Buffer.area_mul]
    exact hfills.size_eq
  obtain ⟨color, hcolor⟩ :=
    sample_of_pixels halike hpixels (texelCenter b.size p) opacity
  obtain ⟨i, red, green, blue, hi, hpick, rfl⟩ := bytes_of_sample hcolor
  cases (texelOffset_center hp).symm.trans hi
  refine ⟨red, green, blue, ?_, hcolor⟩
  rw [← hpick]
  apply ChannelOrder.pick_congr
  intro k hk
  exact (hfills.byte p.1 p.2 k hp.1 hp.2 hk).symm

namespace Canvas

variable {c : Config ℚ} {textures : Both Texture} {order : ChannelOrder} {b : Buffer}
  {resident : Residency} {canvas : Canvas ℚ}

/-- As long as the overlay has no picture, the background is all that is drawn. -/
theorem drawAll_background (hbackground : resident.contains c.layout.background = true)
    (hoverlay : resident.contains c.layout.overlay = false) :
    canvas.drawAll textures ((Plan.ofConfig c).drawOps resident) =
      canvas.draw textures (.layer (Plan.ofConfig c).background) := by
  have hops : (Plan.ofConfig c).drawOps resident = [.layer (Plan.ofConfig c).background] := by
    have hrole : (Plan.ofConfig c).background.role = c.layout.background := rfl
    have hrole' : (Plan.ofConfig c).overlay.role = c.layout.overlay := rfl
    simp [Plan.drawOps, hrole, hrole', hbackground, hoverlay]
  rw [hops]
  exact bind_pure _

/-- The color that a background at its own scale has at a pixel. -/
theorem colorAt_background
    (hsource : c.sources.get c.layout.background = ⟨b.size, .packed order⟩)
    (hpixels : b.size.isEmpty = false) (houtput : c.output = b.size.turned c.layout.rotation)
    (hholds : (textures.get c.layout.background).Holds (.packed order) (.packed b))
    {p : Nat × Nat} (hp : c.output.Has p) :
    let q := c.layout.rotation.origin b.size p
    b.size.Has q ∧ ∃ red green blue,
      order.pick (b.byte? q.1 q.2) = (some red, some green, some blue) ∧
      (DrawOp.layer (Plan.ofConfig c).background).colorAt textures c.output p.1 p.2 =
        .ok ⟨levelOfByte red, levelOfByte green, levelOfByte blue, 1⟩ := by
  intro q
  obtain ⟨texels, htexture, hfills⟩ := Texture.packed_of_holds hholds
  have hquad : (Plan.ofConfig c).background.quad =
      .fill b.size (b.size.turned c.layout.rotation) c.layout.rotation := by
    change Quad.fill (c.sources.get c.layout.background).size c.output _ = _
    rw [hsource, houtput]
  rw [houtput] at hp
  have hq : b.size.Has q := c.layout.rotation.has_origin hp
  obtain ⟨red, green, blue, hpick, hsample⟩ := Texture.sample_center hfills hq 1
  refine ⟨hq, red, green, blue, hpick, ?_⟩
  change (textures.get c.layout.background).sample
    ((Plan.ofConfig c).background.quad.uvAtPixel c.output p.1 p.2) 1 = _
  rw [htexture, hquad, houtput, Quad.uvAtPixel_fill hpixels _ hp]
  exact hsample

/-- Over exact rationals every step keeps to the output. -/
theorem inside_rat (op : DrawOp ℚ) (output : Size) : op.Inside output := by
  apply DrawOp.inside_of_spans
  intro r x y hcovers
  obtain ⟨hx, hy, _⟩ := (Span.covers_iff r output x y).mp hcovers
  exact ⟨hx, hy⟩

/-- A background of the size of the output after its turn is shown texel by texel. With a turn by a
right angle the columns of the source, read from below, are the rows of the picture, with a half
turn the picture stands on its head, and with three right angles the columns are read from above and
the rightmost one comes first. Each pixel has red, green and blue of its texel, byte for byte, and
each texel is seen in one place. -/
theorem backgrounds_are_turned_clockwise
    (hsource : c.sources.get c.layout.background = ⟨b.size, .packed order⟩)
    (hpixels : b.size.isEmpty = false) (houtput : c.output = b.size.turned c.layout.rotation)
    (hholds : (textures.get c.layout.background).Holds (.packed order) (.packed b))
    (hbackground : resident.contains c.layout.background = true)
    (hoverlay : resident.contains c.layout.overlay = false)
    (hcanvas : canvas.Alike (.blank c.output)) :
    ∃ picture : Canvas ℚ,
      canvas.clear.drawAll textures ((Plan.ofConfig c).drawOps resident) = .ok picture ∧
      picture.size = c.output ∧
      (∀ p, c.output.Has p →
        let q := c.layout.rotation.origin b.size p
        b.size.Has q ∧ ∃ red green blue,
          order.pick (b.byte? q.1 q.2) = (some red, some green, some blue) ∧
          picture.pixel? p.1 p.2 =
            some ⟨levelOfByte red, levelOfByte green, levelOfByte blue, 1⟩ ∧
          ∀ stamp, OutputFrame.pixel? ⟨picture.size, stamp, picture.bytes⟩ p.1 p.2 =
            some ⟨#[red, green, blue, 255]⟩) ∧
      ∀ q, b.size.Has q →
        ∃! p, c.output.Has p ∧ c.layout.rotation.origin b.size p = q := by
  have hcolor := fun p => colorAt_background (p := p) hsource hpixels houtput hholds
  have hwhole : canvas.clear.IsWhole :=
    ((clear_self canvas).trans hcanvas).isWhole Array.size_replicate
  have hsize : canvas.clear.size = c.output := hcanvas.1
  let op : DrawOp ℚ := .layer (Plan.ofConfig c).background
  obtain ⟨picture, hdraw, hblended⟩ : ∃ picture, canvas.clear.draw textures op = .ok picture ∧
      Blended (op.colorAt textures c.output) (op.cells c.output) canvas.clear picture := by
    rw [draw_eq, hsize]
    apply blended_of_colors hwhole (DrawOp.nodup_cells _ _)
    · rw [hsize]
      exact DrawOp.inside_cells (inside_rat _ _)
    · intro x y hcell
      obtain ⟨_, red, green, blue, _, hsample⟩ :=
        hcolor (x, y) (inside_rat _ _ x y (DrawOp.mem_cells.mp hcell))
      exact ⟨_, hsample⟩
  have hpicture : picture.size = c.output := hblended.alike.1.trans hsize
  refine ⟨picture, ?_, hpicture, ?_, ?_⟩
  · rw [drawAll_background hbackground hoverlay]
    exact hdraw
  · intro p hp q
    obtain ⟨hq, red, green, blue, hpick, hsample⟩ := hcolor p hp
    have hcovers : (DrawOp.layer (Plan.ofConfig c).background).Covers c.output p.1 p.2 :=
      Span.covers_full hp
    obtain ⟨color, dst, hcolor, _, hpixel⟩ :=
      hblended.color p.1 p.2 (DrawOp.mem_cells.mpr hcovers)
    cases hsample.symm.trans hcolor
    rw [Color.atop_opaque rfl] at hpixel
    refine ⟨hq, red, green, blue, hpick, hpixel, ?_⟩
    intro stamp
    rw [pixel?_of_bytes hpixel, Color.bytes_levelOfByte]
  · intro q hq
    rw [houtput]
    exact c.layout.rotation.existsUnique_origin hq

/-- A row of two pixels, turned by three right angles, is a column with the right pixel on top. -/
theorem a_row_is_turned_into_a_column :
    let b : Buffer := ⟨2, 1, 11, 5, ⟨#[10, 20, 30, 0, 99, 40, 50, 60, 0]⟩⟩
    let start : Config ℚ := .withSizes ⟨1, 1⟩ ⟨1, 1⟩ ⟨1, 2⟩
    let c := { start with
      sources := start.sources.set .secondary ⟨⟨2, 1⟩, .packed .bgra⟩
      layout := { start.layout with rotation := .deg270 } }
    let textures := (c.sources.map Texture.blank).modify .secondary fun t =>
      (t.upload .secondary .packed (.packed b)).1
    let picture := fun pixels : ByteArray => (⟨⟨1, 2⟩, ⟨0, 0⟩, pixels⟩ : OutputFrame)
    (textures.get .secondary).Holds (.packed .bgra) (.packed b) ∧
      ∃ canvas : Canvas ℚ,
        (blank ⟨1, 2⟩).clear.drawAll textures
          ((Plan.ofConfig c).drawOps ⟨⟨false, true⟩⟩) = .ok canvas ∧
        (picture canvas.bytes).pixel? 0 0 = some ⟨#[60, 50, 40, 255]⟩ ∧
        (picture canvas.bytes).pixel? 0 1 = some ⟨#[30, 20, 10, 255]⟩ := by
  intro b start c textures picture
  have hfits : (Frame.packed b).Fits ⟨⟨2, 1⟩, .packed .bgra⟩ := ⟨rfl, by decide⟩
  have hholds : (textures.get .secondary).Holds (.packed .bgra) (.packed b) :=
    Texture.holds_of_upload (Texture.alike_refl _) hfits (by decide +kernel)
  have hsource : c.sources.get c.layout.background = ⟨b.size, .packed .bgra⟩ := rfl
  have houtput : c.output = b.size.turned c.layout.rotation := rfl
  let resident : Residency := ⟨⟨false, true⟩⟩
  have hbackground : resident.contains c.layout.background = true := rfl
  have hoverlay : resident.contains c.layout.overlay = false := rfl
  obtain ⟨canvas, hdraw, hsize, hpixels, _⟩ :=
    backgrounds_are_turned_clockwise hsource (by decide) houtput hholds hbackground hoverlay
      (alike_refl (blank c.output))
  refine ⟨hholds, canvas, hdraw, ?_, ?_⟩
  · obtain ⟨_, red, green, blue, hpick, _, hbytes⟩ := hpixels (0, 0) (by decide)
    cases hpick
    rw [hsize] at hbytes
    exact hbytes ⟨0, 0⟩
  · obtain ⟨_, red, green, blue, hpick, _, hbytes⟩ := hpixels (0, 1) (by decide)
    cases hpick
    rw [hsize] at hbytes
    exact hbytes ⟨0, 0⟩

end Canvas

end PictureInPicture
