-- The picture stays opaque. Whatever is uploaded and whichever sources are drawn, every pixel of
-- the picture keeps its levels between 0 and 1 and an opacity of 1 exactly, so every picture that
-- is handed on has 255 for each of its fourth bytes.
import PictureInPicture.Proofs.Config.Accepted
import PictureInPicture.Proofs.Plan
import PictureInPicture.Proofs.Raster.Reference
import PictureInPicture.Proofs.Scalar.Levels

namespace PictureInPicture

/-! ## Opaque colors -/

namespace Color

/-- A color whose levels and whose opacity are between 0 and 1. -/
structure IsShade {α : Type} [Scalar α] (color : Color α) : Prop where
  red : IsLevel color.red
  green : IsLevel color.green
  blue : IsLevel color.blue
  alpha : IsLevel color.alpha

/-- A color whose levels are between 0 and 1 and that shows nothing of what is under it. -/
structure IsOpaque {α : Type} [Scalar α] (color : Color α) : Prop where
  red : IsLevel color.red
  green : IsLevel color.green
  blue : IsLevel color.blue
  alpha : color.alpha = 1

theorem isOpaque_black : (black : Color Float32).IsOpaque :=
  ⟨Single.isLevel_zero, Single.isLevel_zero, Single.isLevel_zero, rfl⟩

variable {src dst : Color Float32}

/-- What is blended over an opaque color is opaque. -/
theorem isOpaque_atop (hsrc : src.IsShade) (hdst : dst.IsOpaque) : (src.atop dst).IsOpaque where
  red := Single.isLevel_blend hsrc.red hdst.red hsrc.alpha
  green := Single.isLevel_blend hsrc.green hdst.green hsrc.alpha
  blue := Single.isLevel_blend hsrc.blue hdst.blue hsrc.alpha
  alpha := by
    unfold atop
    dsimp only
    rw [hdst.alpha]
    exact Single.opacity_add_rest hsrc.alpha

end Color

/-! ## Opaque canvases -/

/-- What every step keeps is kept by all of them. -/
theorem foldlM_keeps {β γ ε : Type} {f : β → γ → Except ε β} {P : β → Prop} {l : List γ} {b b' : β}
    (hf : ∀ x ∈ l, ∀ b b', P b → f b x = .ok b' → P b') (hb : P b) (h : l.foldlM f b = .ok b') :
    P b' := by
  induction l generalizing b with
  | nil =>
    cases h
    exact hb
  | cons x l ih =>
    rw [List.foldlM_cons] at h
    cases hfirst : f b x with
    | error =>
      rw [hfirst] at h
      cases h
    | ok next =>
      rw [hfirst] at h
      obtain ⟨hx, hl⟩ := List.forall_mem_cons.mp hf
      exact ih hl (hx b next hb hfirst) h

namespace Canvas

/-- All pixels are opaque. -/
def IsOpaque {α : Type} [Scalar α] (c : Canvas α) : Prop := ∀ color ∈ c.pixels, color.IsOpaque

variable {c c' : Canvas Float32} {shade : Nat → Nat → Except Crash (Color Float32)}

theorem isOpaque_blank (size : Size) : (blank size : Canvas Float32).IsOpaque := by
  intro color hcolor
  obtain rfl := (Array.mem_replicate.mp hcolor).2
  exact Color.isOpaque_black

theorem isOpaque_clear (c : Canvas Float32) : c.clear.IsOpaque := by
  intro color hcolor
  obtain ⟨_, _, rfl⟩ := Array.mem_map.mp hcolor
  exact Color.isOpaque_black

theorem isOpaque_blend {x y : Nat} {src : Color Float32} (hc : c.IsOpaque) (hsrc : src.IsShade)
    (h : c.blend x y src = .ok c') : c'.IsOpaque := by
  unfold blend at h
  dsimp only at h
  split at h
  · rename_i hlt
    cases h
    intro color hcolor
    rcases Array.mem_or_eq_of_mem_set (w := hlt) hcolor with hcolor | rfl
    · exact hc color hcolor
    · exact Color.isOpaque_atop hsrc (hc _ (Array.getElem_mem hlt))
  · cases h

theorem isOpaque_dab {cell : Nat × Nat}
    (hshade : ∀ x y color, shade x y = .ok color → color.IsShade) (hc : c.IsOpaque)
    (h : dab shade c cell = .ok c') : c'.IsOpaque := by
  obtain ⟨color, hcolor, hblend⟩ := dab_ok h
  exact isOpaque_blend hc (hshade _ _ _ hcolor) hblend

end Canvas

/-! ## The colors of a step -/

namespace Texture

variable {t : Texture} {p : TexPoint Float32} {opacity : Float32} {color : Color Float32}

theorem isLevel_sample {plane : PlaneTexture} {level : Float32} (h : plane.sample p = .ok level) :
    IsLevel level := by
  unfold PlaneTexture.sample at h
  split at h
  · cases h
  · split at h
    · cases h
      exact isLevel_levelOfByte _
    · cases h

/-- Whatever bytes a texture holds, its colors are shades of the opacity that is asked for. -/
theorem isShade_sample (hopacity : IsLevel opacity) (h : t.sample p opacity = .ok color) :
    color.IsShade := by
  unfold sample at h
  cases t with
  | packed size order texels =>
    dsimp only at h
    split at h
    · cases h
    · split at h
      · cases h
        cases order <;>
          exact ⟨isLevel_levelOfByte _, isLevel_levelOfByte _, isLevel_levelOfByte _, hopacity⟩
      · cases h
  | planar y u v =>
    dsimp only at h
    split at h
    · cases h
    · rename_i hy
      split at h
      · cases h
      · rename_i hu
        split at h
        · cases h
        · rename_i hv
          cases h
          obtain ⟨hred, hgreen, hblue⟩ :=
            isLevel_rgbOfYuv (isLevel_sample hy) (isLevel_sample hu) (isLevel_sample hv)
          exact ⟨hred, hgreen, hblue, hopacity⟩

end Texture

namespace DrawOp

/-- A step whose colors are shades, whatever its source shows. -/
def IsShaded {α : Type} [Scalar α] : DrawOp α → Prop
  | fill _ color => color.IsShade
  | outline _ color => color.IsShade
  | layer shown => IsLevel shown.opacity

variable {op : DrawOp Float32}

theorem isShade_colorAt (hop : op.IsShaded) {textures : Both Texture} {output : Size} {x y : Nat}
    {color : Color Float32} (h : op.colorAt textures output x y = .ok color) : color.IsShade := by
  cases op with
  | fill =>
    cases h
    exact hop
  | outline =>
    cases h
    exact hop
  | layer => exact Texture.isShade_sample hop h

end DrawOp

namespace Canvas

variable {c c' : Canvas Float32} {textures : Both Texture} {ops : List (DrawOp Float32)}

theorem isOpaque_draw {op : DrawOp Float32} (hop : op.IsShaded) (hc : c.IsOpaque)
    (h : c.draw textures op = .ok c') : c'.IsOpaque := by
  rw [draw_eq] at h
  exact foldlM_keeps (fun _ _ _ _ => isOpaque_dab fun _ _ _ => DrawOp.isShade_colorAt hop) hc h

/-- Any number of steps leaves a canvas opaque. -/
theorem isOpaque_drawAll (hops : ∀ op ∈ ops, op.IsShaded) (hc : c.IsOpaque)
    (h : c.drawAll textures ops = .ok c') : c'.IsOpaque :=
  foldlM_keeps (fun op hop _ _ => isOpaque_draw (hops op hop)) hc h

/-- The fourth byte of every pixel of an opaque canvas is the largest one. -/
theorem alpha_bytes (hc : c.IsOpaque) {i : Nat} (h : i * 4 + 3 < c.bytes.size) :
    c.bytes[i * 4 + 3] = 255 := by
  have hi : i < c.pixels.toList.length := by
    rw [size_bytes] at h
    rw [Array.length_toList]
    omega
  have hshown : (c.pixels.toList[i]).IsOpaque :=
    hc _ (Array.mem_toList_iff.mp (List.getElem_mem hi))
  have hpart := take_drop_flatMap (f := fun color : Color Float32 => color.bytes.data.toList)
    (n := 4) (fun _ => rfl) (List.getElem?_eq_getElem hi)
  rw [← toList_bytes] at hpart
  have hbyte : (((c.bytes.data.toList.drop (i * 4)).take 4)[3]?) = some 255 := by
    rw [hpart]
    change some (Color.byteOfLevel _) = _
    rw [hshown.alpha]
    decide
  rw [List.getElem?_take_of_lt (by decide), List.getElem?_drop] at hbyte
  exact (List.getElem?_eq_some_iff.mp hbyte).2

end Canvas

/-! ## The steps of a plan -/

namespace Plan

theorem isShade_backingColor : (backingColor : Color Float32).IsShade :=
  ⟨by decide, by decide, by decide, by decide⟩

theorem isShade_borderColor : (borderColor : Color Float32).IsShade :=
  ⟨by decide, by decide, by decide, by decide⟩

theorem isLevel_overlayOpacity {α : Type} [Scalar α] {c : Config α} (hc : c.validate = .ok ()) :
    IsLevel c.layout.overlayOpacity :=
  (Config.validate_eq_ok.mp hc).2.overlayOpacity

/-- Settings that are accepted make a plan with no other opacities than those between 0 and 1. -/
theorem isShaded_drawOps {c : Config Float32} (hc : c.validate = .ok ()) (residency : Residency) :
    ∀ op ∈ (ofConfig c).drawOps residency, op.IsShaded := by
  intro op hop
  rcases mem_drawOps hop with rfl | rfl | ⟨f, hframe, rfl | rfl⟩
  · exact Single.isLevel_one
  · exact isLevel_overlayOpacity hc
  · change f.backing.IsShade
    rw [(colors_of_frame hframe).1]
    exact isShade_backingColor
  · change f.border.IsShade
    rw [(colors_of_frame hframe).2]
    exact isShade_borderColor

end Plan

/-! ## The pictures of a backend -/

/-- A picture of the whole output, with nothing that shines through. -/
structure OutputFrame.IsSolid (picture : OutputFrame) (output : Size) : Prop where
  size : picture.size = output
  bytes : picture.pixels.size = output.area * 4
  opacity : ∀ i (h : i * 4 + 3 < picture.pixels.size), picture.pixels[i * 4 + 3] = 255

namespace Raster.State

/-- The states that a backend comes to when it takes or refuses frames and draws the sources of its
plan, as long as no drawing crashes. -/
inductive Played (c : Config Float32) : State → Prop where
  | create {s} (h : create c = .ok s) : Played c s
  | upload {s} (h : Played c s) (role : Role) (frame : Frame) :
      Played c (s.upload role frame).state
  | render {s} (h : Played c s) (residency : Residency) (stamp : Stamp)
      (hdrawn : ∀ crash,
        (s.render ((Plan.ofConfig c).drawOps residency) stamp).outcome ≠ .crashed crash) :
      Played c (s.render ((Plan.ofConfig c).drawOps residency) stamp).state
  | disconnect {s} (h : Played c s) : Played c s.disconnect

variable {c : Config Float32} {s : State}

theorem reached_of_played (h : Played c s) : Reached c s := by
  induction h with
  | create h => exact .create h
  | upload _ role frame ih => exact ih.upload role frame
  | render _ residency stamp _ ih => exact ih.render _ stamp
  | disconnect _ ih => exact ih.disconnect

theorem canvas_upload (s : State) (role : Role) (frame : Frame) :
    (s.upload role frame).state.canvas = s.canvas := by
  unfold upload
  dsimp only
  split
  · rfl
  · split <;> rfl

theorem canvas_of_render {ops : List (DrawOp Float32)} {stamp : Stamp}
    (hdrawn : ∀ crash, (s.render ops stamp).outcome ≠ .crashed crash) :
    ∃ canvas, s.canvas.clear.drawAll s.textures ops = .ok canvas := by
  cases hdraw : s.canvas.clear.drawAll s.textures ops with
  | error crash =>
    rw [render_of_crash hdraw] at hdrawn
    exact absurd rfl (hdrawn crash)
  | ok canvas => exact ⟨canvas, rfl⟩

/-- A picture that is handed on shows the canvas that was drawn. -/
theorem canvas_of_picture {ops : List (DrawOp Float32)} {stamp : Stamp} {picture : OutputFrame}
    (h : .frame picture ∈ (s.render ops stamp).effects) :
    ∃ canvas, s.canvas.clear.drawAll s.textures ops = .ok canvas ∧
      picture = ⟨canvas.size, stamp, canvas.bytes⟩ := by
  cases hdraw : s.canvas.clear.drawAll s.textures ops with
  | error crash =>
    rw [render_of_crash hdraw] at h
    cases h
  | ok canvas =>
    rw [(render_of_canvas hdraw stamp).2.2] at h
    split at h
    · cases List.mem_singleton.mp h
      exact ⟨canvas, rfl, rfl⟩
    · cases h

/-- What is drawn for settings that are accepted is opaque, whatever was drawn before. -/
theorem isOpaque_of_drawAll (hc : c.validate = .ok ()) {residency : Residency}
    {canvas : Canvas Float32}
    (h : s.canvas.clear.drawAll s.textures ((Plan.ofConfig c).drawOps residency) = .ok canvas) :
    canvas.IsOpaque :=
  Canvas.isOpaque_drawAll (Plan.isShaded_drawOps hc residency) (Canvas.isOpaque_clear _) h

/-- A picture that is handed on is whole and opaque, also after a drawing that crashed. -/
theorem isSolid_of_picture (hc : c.validate = .ok ()) (hs : Reached c s) {residency : Residency}
    {stamp : Stamp} {picture : OutputFrame}
    (h : .frame picture ∈ (s.render ((Plan.ofConfig c).drawOps residency) stamp).effects) :
    picture.IsSolid c.output := by
  obtain ⟨canvas, hdraw, rfl⟩ := canvas_of_picture h
  have hshaped := shaped_of_reached hs
  have halike := (Canvas.alike_drawAll hdraw).trans (Canvas.clear_self _)
  have hsize : canvas.size = c.output := halike.1.trans hshaped.canvas.1
  refine ⟨hsize, ?_, fun i h => Canvas.alpha_bytes (isOpaque_of_drawAll hc hdraw) h⟩
  rw [Canvas.size_bytes, halike.isWhole (isWhole_of_shaped hshaped), hsize]

theorem isOpaque_of_played (hc : c.validate = .ok ()) (h : Played c s) : s.canvas.IsOpaque := by
  induction h with
  | create h =>
    obtain ⟨_, rfl⟩ := create_eq_ok.mp h
    exact Canvas.isOpaque_blank c.output
  | upload _ role frame ih =>
    rw [canvas_upload]
    exact ih
  | render _ residency stamp hdrawn _ =>
    obtain ⟨canvas, hdraw⟩ := canvas_of_render hdrawn
    rw [(render_of_canvas hdraw stamp).1]
    exact isOpaque_of_drawAll hc hdraw
  | disconnect _ ih => exact ih

/-- For settings that are accepted, every pixel of the picture has its levels between 0 and 1 and an
opacity of 1 exactly after every step, and so after every drawing, whatever the opacity of the
overlay is. Every picture that is handed on has 255 for the fourth byte of each pixel. -/
theorem pictures_stay_opaque (hc : c.validate = .ok ()) (hs : Played c s) :
    s.canvas.IsOpaque ∧ s.canvas.pixels.size = c.output.area ∧
      ∀ residency stamp picture,
        .frame picture ∈ (s.render ((Plan.ofConfig c).drawOps residency) stamp).effects →
          picture.pixels.size = c.output.area * 4 ∧
            ∀ i (h : i * 4 + 3 < picture.pixels.size), picture.pixels[i * 4 + 3] = 255 := by
  have hshaped := shaped_of_reached (reached_of_played hs)
  refine ⟨isOpaque_of_played hc hs, ?_, ?_⟩
  · rw [isWhole_of_shaped hshaped, hshaped.canvas.1]
    rfl
  · intro residency stamp picture hpicture
    have hsolid := isSolid_of_picture hc (reached_of_played hs) hpicture
    exact ⟨hsolid.bytes, hsolid.opacity⟩

/-- A source is drawn over another one with an opacity that has no exact rest to 1. -/
theorem a_translucent_overlay_leaves_the_picture_opaque :
    let standard : Config Float32 := .withSizes ⟨1, 1⟩ ⟨1, 1⟩ ⟨2, 2⟩
    let layout := { standard.layout with
      widthRatio := 1, heightRatio := 1, overlayOpacity := Scalar.ofDecimal 3 1 }
    let c := { standard with layout }
    let lower : Frame := .packed ⟨1, 1, 4, 4, ⟨#[200, 100, 0, 7]⟩⟩
    let upper : Buffer := ⟨1, 1, 1, 1, ⟨#[90]⟩⟩
    let s := (((blank c).upload .primary lower).state.upload .secondary
      (.planar ⟨upper, upper, upper⟩)).state
    let reply := s.render ((Plan.ofConfig c).drawOps ⟨.twice true⟩) ⟨0, 0⟩
    c.validate = .ok () ∧ Played c s ∧ ∃ picture, reply.effects = [.frame picture] ∧
      picture.pixels.size = 16 ∧
      ∀ i (h : i * 4 + 3 < picture.pixels.size), picture.pixels[i * 4 + 3] = 255 := by
  intro standard layout c lower upper s reply
  have hc : c.validate = .ok () := by decide +kernel
  have hs : Played c s :=
    ((Played.create (create_eq_ok.mpr ⟨by decide +kernel, rfl⟩)).upload .primary lower).upload
      .secondary (.planar ⟨upper, upper, upper⟩)
  have houtcome : reply.outcome = .done .presented := by decide +kernel
  obtain ⟨canvas, hdraw⟩ := canvas_of_render (s := s) fun crash h => by
    cases houtcome.symm.trans h
  have heffects : reply.effects = [.frame ⟨canvas.size, ⟨0, 0⟩, canvas.bytes⟩] :=
    (render_of_canvas hdraw ⟨0, 0⟩).2.2.trans (if_pos (by decide +kernel))
  obtain ⟨_, _, hpictures⟩ := pictures_stay_opaque hc hs
  exact ⟨hc, hs, _, heffects,
    hpictures ⟨.twice true⟩ ⟨0, 0⟩ _ (by rw [heffects]; exact List.mem_singleton_self _)⟩

end Raster.State

end PictureInPicture
