-- The ends of the range of opacities. A layer of opacity 1 puts the bytes of its texels into the
-- picture, whatever is under it. A layer of opacity 0 changes no byte. The levels that bytes stand
-- for are rounded, but with these two weights neither the products nor the sums are.
import PictureInPicture.Proofs.Raster.LogicalImage
import PictureInPicture.Proofs.Raster.Opacity
import PictureInPicture.Proofs.Raster.Safety

namespace PictureInPicture

open Single

/-! ## Levels at the ends -/

namespace Single

variable {x y s d a : Float32} {p q w : ℚ}

/-- A weight of 0 or 1. -/
theorem Reads.mul_end (hx : Reads x p) (hp : |p| ≤ 2 ^ 127) (ha : Reads a w)
    (hw : w = 0 ∨ w = 1) : Reads (x * a) (p * w) := by
  rcases hw with rfl | rfl
  · apply hx.mul_exact ha
    · norm_num
    · rw [mul_zero]
      exact rounded_zero
  · apply hx.mul_exact ha
    · rwa [mul_one]
    · rw [mul_one]
      exact hx.rounded

/-- Of two numbers with weights of 0 and 1 one is left as it is. -/
theorem reads_blend_end (hs : Reads s p) (hd : Reads d q) (hp : |p| ≤ 2 ^ 127) (hq : |q| ≤ 2 ^ 127)
    (ha : Reads a w) (hw : w = 0 ∨ w = 1) :
    Reads (s * a + d * (Scalar.ofNat 1 - a)) (p * w + q * (1 - w)) := by
  have hrest : 1 - w = 0 ∨ 1 - w = 1 := by rcases hw with rfl | rfl <;> norm_num
  have hreads : Reads (Scalar.ofNat 1 - a) (1 - w) := by
    apply reads_one.sub_exact ha
    · rcases hrest with heq | heq <;> rw [heq] <;> norm_num
    · rcases hrest with heq | heq <;> rw [heq]
      · exact rounded_zero
      · exact reads_one.rounded
  have hsum : p * w + q * (1 - w) = q ∨ p * w + q * (1 - w) = p := by
    rcases hw with rfl | rfl
    · exact .inl (by ring)
    · exact .inr (by ring)
  apply (hs.mul_end hp ha hw).add_exact (hd.mul_end hq hreads hrest)
  · rcases hsum with heq | heq <;> rwa [heq]
  · rcases hsum with heq | heq <;> rw [heq]
    · exact hd.rounded
    · exact hs.rounded

/-- A level over another one with an opacity of 1. -/
theorem reads_blend_full (hs : IsLevel s) (hd : IsLevel d) (ha : Reads a 1) :
    ∃ p, Reads s p ∧ Reads (s * a + d * (Scalar.ofNat 1 - a)) p := by
  obtain ⟨p, hp, hple⟩ := (within_of_isLevel hs).mono (Nat.zero_le 127)
  obtain ⟨q, hq, hqle⟩ := (within_of_isLevel hd).mono (Nat.zero_le 127)
  have hblend := reads_blend_end hp hq hple hqle ha (.inr rfl)
  rw [mul_one, sub_self, mul_zero, add_zero] at hblend
  exact ⟨p, hp, hblend⟩

/-- A level over another one with an opacity of 0. -/
theorem reads_blend_none (hs : IsLevel s) (hd : IsLevel d) (ha : Reads a 0) :
    ∃ q, Reads d q ∧ Reads (s * a + d * (Scalar.ofNat 1 - a)) q := by
  obtain ⟨p, hp, hple⟩ := (within_of_isLevel hs).mono (Nat.zero_le 127)
  obtain ⟨q, hq, hqle⟩ := (within_of_isLevel hd).mono (Nat.zero_le 127)
  have hblend := reads_blend_end hp hq hple hqle ha (.inl rfl)
  rw [mul_zero, sub_zero, mul_one, zero_add] at hblend
  exact ⟨q, hq, hblend⟩

end Single

/-! ## Bytes -/

namespace Color

variable {src dst : Color Float32}

/-- The byte of a level depends on the number that it stands for, not on the sign of a zero. -/
theorem byteOfLevel_congr {x y : Float32} {q : ℚ} (hx : Reads x q) (hy : Reads y q) :
    byteOfLevel x = byteOfLevel y := by
  by_cases hq : q = 0
  · have hzero : ∀ s, byteOfLevel (Float32.ofModel (.pack (.zero s))) = 0 := by
      intro s
      cases s <;> decide
    obtain ⟨s, rfl⟩ := hx.eq_zero hq
    obtain ⟨s', rfl⟩ := hy.eq_zero hq
    rw [hzero, hzero]
  · rw [hx.eq_of_ne_zero hy hq]

/-- A byte is the one nearest to its level. -/
theorem byteOfLevel_levelOfByte (b : UInt8) : byteOfLevel (levelOfByte b : Float32) = b := by
  have hall : ∀ n : Fin 256,
      byteOfLevel (levelOfByte (UInt8.ofFin n) : Float32) = UInt8.ofFin n := by
    decide +kernel
  exact hall b.toFin

/-- A color of opacity 1 shows its own bytes over an opaque one. -/
theorem bytes_atop_full (hsrc : src.IsShade) (hdst : dst.IsOpaque) (ha : Reads src.alpha 1) :
    (src.atop dst).bytes =
      ⟨#[byteOfLevel src.red, byteOfLevel src.green, byteOfLevel src.blue, 255]⟩ := by
  have hlevel : ∀ {s d : Float32}, IsLevel s → IsLevel d →
      byteOfLevel (s * src.alpha + d * (Scalar.ofNat 1 - src.alpha)) = byteOfLevel s := by
    intro s d hs hd
    obtain ⟨p, hp, hblend⟩ := reads_blend_full hs hd ha
    exact byteOfLevel_congr hblend hp
  have halpha : byteOfLevel (src.atop dst).alpha = 255 := by
    rw [(isOpaque_atop hsrc hdst).alpha]
    decide
  unfold bytes
  rw [halpha]
  unfold atop
  dsimp only
  rw [← hlevel hsrc.red hdst.red, ← hlevel hsrc.green hdst.green, ← hlevel hsrc.blue hdst.blue]
  rfl

/-- A color of opacity 0 leaves the bytes of an opaque one. -/
theorem bytes_atop_none (hsrc : src.IsShade) (hdst : dst.IsOpaque) (ha : Reads src.alpha 0) :
    (src.atop dst).bytes = dst.bytes := by
  have hlevel : ∀ {s d : Float32}, IsLevel s → IsLevel d →
      byteOfLevel (s * src.alpha + d * (Scalar.ofNat 1 - src.alpha)) = byteOfLevel d := by
    intro s d hs hd
    obtain ⟨q, hq, hblend⟩ := reads_blend_none hs hd ha
    exact byteOfLevel_congr hblend hq
  unfold bytes
  rw [(isOpaque_atop hsrc hdst).alpha, hdst.alpha]
  unfold atop
  dsimp only
  rw [← hlevel hsrc.red hdst.red, ← hlevel hsrc.green hdst.green, ← hlevel hsrc.blue hdst.blue]
  rfl

end Color

/-! ## The samples of a layer -/

namespace Texture

variable {α : Type} [Scalar α] {t : Texture} {p : TexPoint α} {opacity : α} {color : Color α}

theorem alpha_of_sample (h : t.sample p opacity = .ok color) : color.alpha = opacity := by
  unfold sample at h
  cases t with
  | packed size order texels =>
    dsimp only at h
    split at h
    · cases h
    · split at h
      · cases h
        cases order <;> rfl
      · cases h
  | planar y u v =>
    dsimp only at h
    split at h
    · cases h
    · split at h
      · cases h
      · split at h
        · cases h
        · cases h
          rfl

/-- A sample of a packed texture has the levels of the three color bytes of one texel. -/
theorem bytes_of_sample {size : Size} {order : ChannelOrder} {texels : ByteArray}
    (h : (packed size order texels).sample p opacity = .ok color) :
    ∃ i r g b, texelOffset size p = .ok i ∧
      order.pick (fun k => texels[i * packedChannels + k]?) = (some r, some g, some b) ∧
      color = ⟨levelOfByte r, levelOfByte g, levelOfByte b, opacity⟩ := by
  unfold sample at h
  dsimp only at h
  split at h
  · cases h
  · rename_i i hi
    split at h
    · rename_i hlt
      cases h
      cases order with
      | rgba =>
        refine ⟨i, _, _, _, hi, ?_, rfl⟩
        exact Prod.ext (getElem?_pos ..) (Prod.ext (getElem?_pos ..) (getElem?_pos ..))
      | bgra =>
        refine ⟨i, _, _, _, hi, ?_, rfl⟩
        exact Prod.ext (getElem?_pos ..) (Prod.ext (getElem?_pos ..) (getElem?_pos ..))
    · cases h

end Texture

/-! ## The bytes of a canvas -/

namespace Canvas

variable {c c' : Canvas Float32} {textures : Both Texture}

theorem bytes_congr {α : Type} [Scalar α] {c c' : Canvas α}
    (h : c'.pixels.toList.map Color.bytes = c.pixels.toList.map Color.bytes) :
    c'.bytes = c.bytes := by
  have hflat : ∀ l : List (Color α), (l.flatMap fun color => color.bytes.data.toList) =
      (l.map Color.bytes).flatMap fun bytes => bytes.data.toList := fun l => by
    rw [List.flatMap_map]
  apply ByteArray.ext
  apply Array.toList_inj.mp
  rw [toList_bytes, toList_bytes, hflat, hflat, h]

/-- A color of opacity 0 changes no byte of an opaque canvas. -/
theorem bytes_blend {x y : Nat} {src : Color Float32} (hc : c.IsOpaque) (hsrc : src.IsShade)
    (ha : Reads src.alpha 0) (h : c.blend x y src = .ok c') : c'.bytes = c.bytes := by
  unfold blend at h
  dsimp only at h
  split at h
  · rename_i hlt
    cases h
    have hsame := Color.bytes_atop_none hsrc (hc _ (Array.getElem_mem hlt)) ha
    apply bytes_congr
    have hplace : y * c.size.width.toNat + x < (c.pixels.toList.map Color.bytes).length := by
      rwa [List.length_map, Array.length_toList]
    rw [Array.toList_set, List.map_set, hsame, ← Array.getElem_toList,
      ← List.getElem_map Color.bytes (h := hplace), List.set_getElem_self]
  · cases h

/-- A layer of opacity 0 changes no byte of an opaque canvas, whatever it shows. -/
theorem bytes_drawLayer {shown : Layer Float32} (hc : c.IsOpaque) (ha : Reads shown.opacity 0)
    (h : c.draw textures (.layer shown) = .ok c') : c'.bytes = c.bytes := by
  have hlevel : IsLevel shown.opacity := isLevel_iff.mpr ⟨0, ha, le_rfl, zero_le_one⟩
  rw [draw_eq] at h
  refine (foldlM_keeps (P := fun b => b.IsOpaque ∧ b.bytes = c.bytes) ?_ ⟨hc, rfl⟩ h).2
  rintro cell _ b b' ⟨hb, hbytes⟩ hdab
  obtain ⟨color, hcolor, hblend⟩ := dab_ok hdab
  have hshade : color.IsShade := Texture.isShade_sample hlevel hcolor
  have halpha : Reads color.alpha 0 := by
    rw [Texture.alpha_of_sample hcolor]
    exact ha
  exact ⟨isOpaque_blend hb hshade hblend, (bytes_blend hb hshade halpha hblend).trans hbytes⟩

end Canvas

/-! ## The plan without its overlay -/

section

variable {α : Type} [Scalar α] {c : Config α}

/-- The sources that hold a picture, but for one. -/
def Residency.without (r : Residency) (role : Role) : Residency := ⟨r.resident.set role false⟩

theorem Residency.contains_without (r : Residency) (role : Role) :
    (r.without role).contains role = false ∧
      ∀ other, other ≠ role → (r.without role).contains other = r.contains other := by
  unfold without contains
  constructor
  · exact Both.get_set_self _ _ _
  · intro other hother
    rw [Both.get_set, if_neg hother.symm]

/-- Without a frame the overlay is the last step, and there is no other one for it. -/
theorem Plan.drawOps_unframed (hframe : c.layout.overlayFrame = false) (r : Residency) :
    (ofConfig c).drawOps r = (ofConfig c).drawOps (r.without c.layout.overlay) ++
      if r.contains c.layout.overlay then [.layer (ofConfig c).overlay] else [] := by
  have hnone : (ofConfig c).frame = none := if_neg (by rw [hframe]; nofun)
  have hother : c.layout.background ≠ c.layout.overlay := by
    unfold Layout.overlay
    cases c.layout.background <;> nofun
  obtain ⟨hoverlay, hbackground⟩ := r.contains_without c.layout.overlay
  have hroles : (ofConfig c).background.role = c.layout.background ∧
      (ofConfig c).overlay.role = c.layout.overlay := ⟨rfl, rfl⟩
  unfold drawOps
  rw [hroles.1, hroles.2, hnone, hoverlay, hbackground _ hother]
  dsimp only
  rw [if_neg Bool.false_ne_true, List.append_nil, List.nil_append]

end

/-! ## Pictures -/

namespace Raster.State

variable {c : Config Float32} {s : State}

/-- A picture of a last layer of opacity 1 has the color bytes of its texels. -/
theorem pixel_of_last_layer (hs : s.Shaped c) (ho : c.output.IsDrawable)
    {under : List (DrawOp Float32)} {shown : Layer Float32} {order : ChannelOrder}
    {texels : ByteArray} {canvas : Canvas Float32} (hunder : ∀ op ∈ under, op.IsShaded)
    (hopacity : Reads shown.opacity 1)
    (htexture : s.textures.get shown.role =
      .packed (c.sources.get shown.role).size order texels)
    (h : s.canvas.clear.drawAll s.textures (under ++ [.layer shown]) = .ok canvas) {x y : Nat}
    (hcovers : (Span.of shown.quad.rect c.output).Covers x y) :
    ∃ i r g b color,
      texelOffset (c.sources.get shown.role).size (shown.quad.uvAtPixel c.output x y) = .ok i ∧
      order.pick (fun k => texels[i * packedChannels + k]?) = (some r, some g, some b) ∧
      canvas.pixel? x y = some color ∧ color.bytes = ⟨#[r, g, b, 255]⟩ := by
  obtain ⟨middle, hmiddle, hlast⟩ := Canvas.drawAll_concat_ok h
  have halike := Canvas.alike_drawAll hmiddle
  have hsize : middle.size = c.output := halike.1.trans hs.canvas.1
  have hblended := Canvas.blended_of_draw (halike.isWhole (isWhole_clear hs))
    (hsize ▸ DrawOp.inside_of_isDrawable ho (.layer shown)) hlast
  rw [hsize] at hblended
  obtain ⟨color, dst, hcolor, hdst, hafter⟩ :=
    hblended.color x y (DrawOp.mem_cells.mpr hcovers)
  have hlevel : IsLevel shown.opacity := isLevel_iff.mpr ⟨1, hopacity, zero_le_one, le_rfl⟩
  have hshade : color.IsShade := Texture.isShade_sample hlevel hcolor
  have hopaque : dst.IsOpaque := by
    apply Canvas.isOpaque_drawAll hunder (Canvas.isOpaque_clear _) hmiddle
    exact Array.mem_of_getElem? hdst
  have hsample : (s.textures.get shown.role).sample _ _ = .ok color := hcolor
  rw [htexture] at hsample
  obtain ⟨i, r, g, b, hi, hpick, rfl⟩ := Texture.bytes_of_sample hsample
  refine ⟨i, r, g, b, _, hi, hpick, hafter, ?_⟩
  rw [Color.bytes_atop_full hshade hopaque hopacity]
  simp only [Color.byteOfLevel_levelOfByte]

theorem reads_of_le_zero {opacity : Float32} (h : IsLevel opacity) (h' : opacity ≤ 0) :
    Reads opacity 0 := by
  obtain ⟨q, hq, hlow, hhigh⟩ := reads_of_between reads_zero reads_zero h.1 h'
  rwa [le_antisymm hhigh hlow] at hq

/-- A picture is handed on. -/
theorem picture_of_canvas {ops : List (DrawOp Float32)} {canvas : Canvas Float32}
    (h : s.canvas.clear.drawAll s.textures ops = .ok canvas) (hreceiving : s.receiving = true)
    (stamp : Stamp) :
    (s.render ops stamp).effects = [.frame ⟨canvas.size, stamp, canvas.bytes⟩] := by
  rw [(render_of_canvas h stamp).2.2, if_pos hreceiving]

/-- An overlay of opacity 0 without a frame makes no difference to the canvas that is shown. -/
theorem bytes_without_overlay (hc : c.validate = .ok ()) (hzero : Reads c.layout.overlayOpacity 0)
    (hframe : c.layout.overlayFrame = false) {residency : Residency} {canvas : Canvas Float32}
    (h : s.canvas.clear.drawAll s.textures ((Plan.ofConfig c).drawOps residency) = .ok canvas) :
    ∃ lower, s.canvas.clear.drawAll s.textures
        ((Plan.ofConfig c).drawOps (residency.without c.layout.overlay)) = .ok lower ∧
      lower.size = canvas.size ∧ lower.bytes = canvas.bytes := by
  rw [Plan.drawOps_unframed hframe] at h
  split at h
  · obtain ⟨lower, hlower, hlast⟩ := Canvas.drawAll_concat_ok h
    have hopaque := isOpaque_of_drawAll hc hlower
    have hopacity : Reads (Plan.ofConfig c).overlay.opacity 0 := hzero
    exact ⟨lower, hlower, (Canvas.alike_draw hlast).1.symm,
      (Canvas.bytes_drawLayer hopaque hopacity hlast).symm⟩
  · rw [List.append_nil] at h
    exact ⟨canvas, h, rfl, rfl⟩

/-- The ends of the range of opacities are exact. A plan of settings that are accepted draws levels
only. Over whatever steps of that kind, a last layer of opacity 1 with a packed source shows at each
of its pixels red, green and blue of the texel that its texture point selects, byte for byte, and
255 for the fourth byte. With an opacity of 0, of either sign, and without a frame, the overlay
makes no difference to the picture. -/
theorem full_and_no_opacity_are_exact (hc : c.validate = .ok ())
    (hw : c.output.width.toNat ≤ 2 ^ 24) (hh : c.output.height.toNat ≤ 2 ^ 24) (hs : Reached c s)
    (hreceiving : s.receiving = true) (stamp : Stamp) :
    (∀ residency, ∀ op ∈ (Plan.ofConfig c).drawOps residency, op.IsShaded) ∧
      (∀ (under : List (DrawOp Float32)) (shown : Layer Float32) order,
        (∀ op ∈ under, op.IsShaded) → shown.opacity = 1 →
          (c.sources.get shown.role).format = .packed order →
          let size := (c.sources.get shown.role).size
          ∃ texels picture, s.textures.get shown.role = .packed size order texels ∧
            (s.render (under ++ [.layer shown]) stamp).effects = [.frame picture] ∧
            ∀ x y, (Span.of shown.quad.rect c.output).Covers x y →
              ∃ i r g b, texelOffset size (shown.quad.uvAtPixel c.output x y) = .ok i ∧
                order.pick (fun k => texels[i * packedChannels + k]?) =
                  (some r, some g, some b) ∧
                picture.pixel? x y = some ⟨#[r, g, b, 255]⟩) ∧
      (c.layout.overlayOpacity ≤ 0 → c.layout.overlayFrame = false → ∀ residency,
        ∃ picture,
          (s.render ((Plan.ofConfig c).drawOps residency) stamp).effects = [.frame picture] ∧
          (s.render ((Plan.ofConfig c).drawOps (residency.without c.layout.overlay))
            stamp).effects = [.frame picture]) := by
  have hshaped := shaped_of_reached hs
  obtain ⟨hsources, houtput⟩ := Config.pixels_of_validate hc
  obtain ⟨hwidth, hheight⟩ := Size.isEmpty_eq_false_iff.mp houtput
  have ho : c.output.IsDrawable := ⟨hwidth, hw, hheight, hh⟩
  refine ⟨Plan.isShaded_drawOps hc, ?_, ?_⟩
  · intro under shown order hunder hopacity hformat size
    obtain ⟨texels, htexture, _⟩ := Texture.shape_of_packed (hshaped.texture shown.role) hformat
    obtain ⟨canvas, hdraw⟩ := drawn hshaped hsources ho (under ++ [.layer shown])
    have hone : Reads shown.opacity 1 := by
      rw [hopacity]
      exact reads_one
    refine ⟨texels, _, htexture, picture_of_canvas hdraw hreceiving stamp, ?_⟩
    intro x y hcovers
    obtain ⟨i, r, g, b, color, hi, hpick, hcolor, hbytes⟩ :=
      pixel_of_last_layer hshaped ho hunder hone htexture hdraw hcovers
    refine ⟨i, r, g, b, hi, hpick, ?_⟩
    rw [← hbytes]
    exact Canvas.pixel?_of_bytes hcolor stamp
  · intro hzero hframe residency
    have hreads := reads_of_le_zero (Plan.isLevel_overlayOpacity hc) hzero
    obtain ⟨canvas, hdraw⟩ := drawn hshaped hsources ho ((Plan.ofConfig c).drawOps residency)
    obtain ⟨lower, hlower, hsize, hbytes⟩ := bytes_without_overlay hc hreads hframe hdraw
    refine ⟨_, picture_of_canvas hdraw hreceiving stamp, ?_⟩
    rw [picture_of_canvas hlower hreceiving stamp, hsize, hbytes]

/-- An overlay whose opacity is the negative zero is not seen. Drawn once more in full, it covers
what is there. -/
theorem an_unseen_overlay_is_seen_in_full :
    let standard : Config Float32 := .withSizes ⟨1, 1⟩ ⟨1, 1⟩ ⟨2, 1⟩
    let layout := { standard.layout with widthRatio := 1, heightRatio := 1, overlayOpacity := -0 }
    let c := { standard with layout }
    let s := ((blank c).upload .primary (.packed ⟨1, 1, 4, 4, ⟨#[200, 100, 0, 7]⟩⟩)).state
    let under := (Plan.ofConfig c).drawOps ⟨.twice true⟩
    let shown : Layer Float32 := ⟨.primary, .packed .rgba, .of .full .full .deg0, 1⟩
    c.validate = .ok () ∧ Reached c s ∧
      (s.render under ⟨0, 0⟩).effects =
        (s.render ((Plan.ofConfig c).drawOps ⟨⟨false, true⟩⟩) ⟨0, 0⟩).effects ∧
      ∃ picture, (s.render (under ++ [.layer shown]) ⟨0, 0⟩).effects = [.frame picture] ∧
        picture.pixel? 1 0 = some ⟨#[200, 100, 0, 255]⟩ := by
  intro standard layout c s under shown
  have hc : c.validate = .ok () := by decide +kernel
  have hs : Reached c s :=
    (Reached.create (create_eq_ok.mpr ⟨by decide +kernel, rfl⟩)).upload .primary _
  have htexture : s.textures.get .primary = .packed ⟨1, 1⟩ .rgba ⟨#[200, 100, 0, 7]⟩ := by
    with_unfolding_all rfl
  obtain ⟨hshaded, hfull, hnone⟩ :=
    full_and_no_opacity_are_exact hc (by decide) (by decide) hs (by decide +kernel) ⟨0, 0⟩
  refine ⟨hc, hs, ?_, ?_⟩
  · obtain ⟨picture, hwith, hwithout⟩ := hnone (by decide +kernel) rfl ⟨.twice true⟩
    exact hwith.trans hwithout.symm
  · obtain ⟨texels, picture, htexels, heffects, hpixels⟩ :=
      hfull under shown .rgba (hshaded _) rfl rfl
    obtain ⟨i, r, g, b, hi, hpick, hpixel⟩ := hpixels 1 0 (by decide +kernel)
    cases htexture.symm.trans htexels
    have hzero : texelOffset (c.sources.get .primary).size (shown.quad.uvAtPixel c.output 1 0) =
        .ok 0 := by
      decide +kernel
    cases hzero.symm.trans hi
    cases hpick
    exact ⟨picture, heffects, hpixel⟩

end Raster.State

end PictureInPicture
