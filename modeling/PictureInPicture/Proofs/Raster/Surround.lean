-- How the frame lies around the overlay, over exact rationals. Its width is set in pixels, is
-- turned into units of the output on each axis and comes back as pixel edges, which run down on the
-- axis that points up. On both axes it comes back as two pixels, wherever the overlay lies.
import PictureInPicture.Proofs.Config.Accepted
import PictureInPicture.Proofs.Plan
import PictureInPicture.Proofs.Raster.Centers
import PictureInPicture.Proofs.Raster.Reference

namespace PictureInPicture

/-! ## Edges that are not held inside the output -/

/-- The four pixel edges of a rectangle. They may lie outside the output. -/
structure Edges where
  left : ℤ
  right : ℤ
  top : ℤ
  bottom : ℤ
  deriving DecidableEq, Repr

namespace Edges

/-- The edges that lie `n` pixels further outside. -/
def outset (e : Edges) (n : ℤ) : Edges where
  left := e.left - n
  right := e.right + n
  top := e.top - n
  bottom := e.bottom + n

/-- The edge inside an axis of `side` pixels that is next to an edge. -/
def held (edge : ℤ) (side : UInt32) : Nat := min side.toNat edge.toNat

def clip (e : Edges) (output : Size) : Span where
  left := held e.left output.width
  right := held e.right output.width
  top := held e.top output.height
  bottom := held e.bottom output.height

end Edges

namespace Rect

/-- The pixel edges at or after the sides of a rectangle. -/
def edges (r : Rect ℚ) (output : Size) : Edges where
  left := ⌈(r.left + 1) / 2 * output.width.toNat - 1 / 2⌉
  right := ⌈(r.right + 1) / 2 * output.width.toNat - 1 / 2⌉
  top := ⌈(1 - r.top) / 2 * output.height.toNat - 1 / 2⌉
  bottom := ⌈(1 - r.bottom) / 2 * output.height.toNat - 1 / 2⌉

end Rect

theorem Span.edge_eq_held (position : ℚ) (side : UInt32) :
    edge position side = Edges.held ⌈position⌉ side := by
  rw [edge_rat, Edges.held, Int.ceil_toNat]

/-- A span has the edges of its rectangle, each held inside the output. -/
theorem Span.of_eq_clip (r : Rect ℚ) (output : Size) :
    of r output = (r.edges output).clip output := by
  unfold of column row Rect.edges Edges.clip
  rw [← edge_eq_held, ← edge_eq_held, ← edge_eq_held, ← edge_eq_held]
  rfl

/-! ## The frame -/

/-- The padding of an axis is two of its pixels. -/
theorem padding_of_pos {side : UInt32} (hside : 0 < side.toNat) :
    (Plan.padding side : ℚ) / 2 * side.toNat = 2 := by
  have hne : (side.toNat : ℚ) ≠ 0 := by exact_mod_cast hside.ne'
  have hmax : max side.toNat 1 = side.toNat := max_eq_left hside
  unfold Plan.padding
  rw [hmax]
  change (2 : ℚ) * 2 / side.toNat / 2 * side.toNat = 2
  field_simp

theorem Rect.edges_inflate (r : Rect ℚ) {output : Size} (hwidth : 0 < output.width.toNat)
    (hheight : 0 < output.height.toNat) :
    (r.inflate (Plan.padding output.width) (Plan.padding output.height)).edges output =
      (r.edges output).outset 2 := by
  have hcolumns := padding_of_pos hwidth
  have hrows := padding_of_pos hheight
  generalize (Plan.padding output.width : ℚ) = dx at hcolumns
  generalize (Plan.padding output.height : ℚ) = dy at hrows
  have hleft : (r.left - dx + 1) / 2 * output.width.toNat - 1 / 2 =
      (r.left + 1) / 2 * output.width.toNat - 1 / 2 - (2 : ℤ) := by
    push_cast
    linarith
  have hright : (r.left - dx + (r.width + 2 * dx) + 1) / 2 * output.width.toNat - 1 / 2 =
      (r.left + r.width + 1) / 2 * output.width.toNat - 1 / 2 + (2 : ℤ) := by
    push_cast
    linarith
  have htop : (1 - (r.bottom - dy + (r.height + 2 * dy))) / 2 * output.height.toNat - 1 / 2 =
      (1 - (r.bottom + r.height)) / 2 * output.height.toNat - 1 / 2 - (2 : ℤ) := by
    push_cast
    linarith
  have hbottom : (1 - (r.bottom - dy)) / 2 * output.height.toNat - 1 / 2 =
      (1 - r.bottom) / 2 * output.height.toNat - 1 / 2 + (2 : ℤ) := by
    push_cast
    linarith
  unfold edges Edges.outset inflate right top
  dsimp only
  rw [hleft, hright, htop, hbottom, Int.ceil_sub_intCast, Int.ceil_add_intCast,
    Int.ceil_sub_intCast, Int.ceil_add_intCast]

/-! ## Sides that are not held back -/

section

variable {edge : ℤ} {side : UInt32} {x : Nat}

/-- The first column of a frame that begins in the output lies before the overlay. -/
theorem Edges.lt_held_of_outset (hfree : (held (edge - 2) side : ℤ) = edge - 2)
    (hside : x < side.toNat) (hx : x = held (edge - 2) side) : x < held edge side := by
  unfold held at *
  omega

/-- The last column of a frame that ends in the output lies after the overlay. -/
theorem Edges.held_le_of_outset (hfree : (held (edge + 2) side : ℤ) = edge + 2)
    (hx : x + 1 = held (edge + 2) side) : held edge side ≤ x := by
  unfold held at *
  omega

end

/-- A span has pixels of the output only. -/
theorem Span.lt_of_clip {e : Edges} {output : Size} {x y : Nat} (h : (e.clip output).Covers x y) :
    x < output.width.toNat ∧ y < output.height.toNat := by
  obtain ⟨_, hx, _, hy⟩ := h
  exact ⟨hx.trans_le (min_le_left _ _), hy.trans_le (min_le_left _ _)⟩

/-- On each side where the outer edge is in the output, the outermost pixels are not among those
that lie two pixels further inside. -/
theorem Edges.apart_of_outset (e : Edges) (output : Size) :
    let outer := (e.outset 2).clip output
    let inner := e.clip output
    let apart := fun side : Nat → Nat → Prop =>
      ∀ x y, outer.Borders x y → side x y → ¬ inner.Covers x y
    (outer.left = (e.outset 2).left → apart fun x _ => x = outer.left) ∧
      (outer.right = (e.outset 2).right → apart fun x _ => x + 1 = outer.right) ∧
      (outer.top = (e.outset 2).top → apart fun _ y => y = outer.top) ∧
      (outer.bottom = (e.outset 2).bottom → apart fun _ y => y + 1 = outer.bottom) := by
  intro outer inner apart
  refine ⟨?_, ?_, ?_, ?_⟩
  · rintro hfree x y ⟨hcovers, _⟩ hside ⟨hinner, _⟩
    exact absurd hinner (lt_held_of_outset hfree (Span.lt_of_clip hcovers).1 hside).not_ge
  · rintro hfree x y _ hside ⟨_, hinner, _⟩
    exact absurd hinner (held_le_of_outset hfree hside).not_gt
  · rintro hfree x y ⟨hcovers, _⟩ hside ⟨_, _, hinner, _⟩
    exact absurd hinner (lt_held_of_outset hfree (Span.lt_of_clip hcovers).2 hside).not_ge
  · rintro hfree x y _ hside ⟨_, _, _, hinner⟩
    exact absurd hinner (held_le_of_outset hfree hside).not_gt

/-! ## The last step -/

/-- The color of the last step lies over what the steps before it have left. -/
theorem Canvas.over_of_last {canvas canvas' : Canvas ℚ} {textures : Both Texture}
    {before : List (DrawOp ℚ)} {last : DrawOp ℚ} (hc : canvas.IsWhole)
    (h : canvas.drawAll textures (before ++ [last]) = .ok canvas') :
    ∃ next, canvas.drawAll textures before = .ok next ∧
      ∀ x y, last.Covers canvas.size x y → ∃ color under,
        last.colorAt textures canvas.size x y = .ok color ∧ next.pixel? x y = some under ∧
          canvas'.pixel? x y = some (color.atop under) := by
  obtain ⟨next, hbefore, hlast⟩ := drawAll_concat_ok h
  have halike := alike_drawAll hbefore
  have hinside : last.Inside next.size := by
    apply DrawOp.inside_of_spans
    intro r x y hcovers
    rw [Span.of_eq_clip] at hcovers
    exact Span.lt_of_clip hcovers
  have hblended := blended_of_draw (halike.isWhole hc) hinside hlast
  rw [halike.1] at hblended
  refine ⟨next, hbefore, ?_⟩
  intro x y hcovers
  exact hblended.color x y (DrawOp.mem_cells.mpr hcovers)

/-! ## The law -/

namespace Plan

theorem frame_of_overlayFrame {c : Config ℚ} (h : c.layout.overlayFrame = true) :
    ∃ f, (ofConfig c).frame = some f ∧
      f.rect = (ofConfig c).overlay.quad.rect.inflate (padding c.output.width)
        (padding c.output.height) := by
  unfold ofConfig
  dsimp only
  rw [if_pos h]
  exact ⟨_, rfl, rfl⟩

/-- The frame of accepted settings has its four pixel edges exactly two pixels outside those of the
overlay. They become the spans that are drawn when they are held inside the output, and on a side
that is not held back no pixel of the border is one of the overlay. The backing and the border are
drawn right before the overlay and only with it, so where they meet the color of the overlay comes
last. -/
theorem the_frame_stands_two_pixels_outside_the_overlay (c : Config ℚ) (hc : c.validate = .ok ())
    (hframe : c.layout.overlayFrame = true) :
    let plan := ofConfig c
    let rect := plan.overlay.quad.rect
    let image := Span.of rect c.output
    ∃ f, plan.frame = some f ∧
      (∀ r : Rect ℚ, Span.of r c.output = (r.edges c.output).clip c.output) ∧
      f.rect.edges c.output = (rect.edges c.output).outset 2 ∧
      (let edges := f.rect.edges c.output
      let frame := Span.of f.rect c.output
      let apart := fun side : Nat → Nat → Prop =>
        ∀ x y, frame.Borders x y → side x y → ¬ image.Covers x y
      (frame.left = edges.left → apart fun x _ => x = frame.left) ∧
        (frame.right = edges.right → apart fun x _ => x + 1 = frame.right) ∧
        (frame.top = edges.top → apart fun _ y => y = frame.top) ∧
        (frame.bottom = edges.bottom → apart fun _ y => y + 1 = frame.bottom)) ∧
      ∀ resident,
        (resident.contains plan.overlay.role = false →
          ∀ op ∈ plan.drawOps resident, op = .layer plan.background) ∧
        (resident.contains plan.overlay.role = true → ∃ below,
          (∀ op ∈ below, op = .layer plan.background) ∧
          let framing := below ++ [.fill f.rect f.backing, .outline f.rect f.border]
          plan.drawOps resident = framing ++ [.layer plan.overlay] ∧
            ∀ (canvas canvas' : Canvas ℚ) textures, canvas.IsWhole → canvas.size = c.output →
              canvas.drawAll textures (plan.drawOps resident) = .ok canvas' →
                ∃ framed, canvas.drawAll textures framing = .ok framed ∧
                  ∀ x y, image.Covers x y → ∃ color under,
                    (DrawOp.layer plan.overlay).colorAt textures c.output x y = .ok color ∧
                      framed.pixel? x y = some under ∧
                      canvas'.pixel? x y = some (color.atop under)) := by
  intro plan rect image
  obtain ⟨hwidth, hheight⟩ :=
    Size.isEmpty_eq_false_iff.mp (Config.pixels_of_validate hc).output
  obtain ⟨f, hf, hrect⟩ := frame_of_overlayFrame hframe
  have hedges : f.rect.edges c.output = (rect.edges c.output).outset 2 := by
    rw [hrect]
    exact Rect.edges_inflate rect hwidth hheight
  refine ⟨f, hf, fun r => Span.of_eq_clip r c.output, hedges, ?_, ?_⟩
  · have hapart := (rect.edges c.output).apart_of_outset c.output
    rw [← hedges] at hapart
    dsimp only [image]
    rw [Span.of_eq_clip, Span.of_eq_clip]
    exact hapart
  · intro resident
    rw [drawOps_of_frame hf]
    generalize hbelow : (if resident.contains plan.background.role = true then
      [DrawOp.layer plan.background] else []) = below
    have honly : ∀ op ∈ below, op = .layer plan.background := by
      rw [← hbelow]
      intro op hop
      split at hop
      · exact List.mem_singleton.mp hop
      · cases hop
    refine ⟨?_, ?_⟩
    · intro hnone
      rw [hnone, if_neg Bool.false_ne_true, List.append_nil]
      exact honly
    · intro hoverlay
      rw [if_pos hoverlay, ← List.append_assoc]
      refine ⟨below, honly, rfl, ?_⟩
      intro canvas canvas' textures hwhole hsize hdrawn
      obtain ⟨framed, hframing, hover⟩ := Canvas.over_of_last hwhole hdrawn
      rw [hsize] at hover
      exact ⟨framed, hframing, hover⟩

/-- An overlay in the upper left corner. Its frame is cut off above and on the left, where the
border lies under the overlay, and not below and on the right, where it lies beside it. -/
theorem a_frame_in_the_corner_is_cut_off_on_two_sides :
    let layout : Layout ℚ := { (Config.standard : Config ℚ).layout with
      anchor := .topLeft, widthRatio := 1 / 2, heightRatio := 1 / 2, marginRatio := 0,
      overlayFrame := true }
    let c : Config ℚ := { (.withSizes ⟨1, 1⟩ ⟨1, 1⟩ ⟨10, 8⟩ : Config ℚ) with layout }
    let rect := (ofConfig c).overlay.quad.rect
    let image := Span.of rect c.output
    c.validate = .ok () ∧ rect.edges c.output = ⟨0, 5, 0, 4⟩ ∧
      ∃ f, (ofConfig c).frame = some f ∧ f.rect.edges c.output = ⟨-2, 7, -2, 6⟩ ∧
        Span.of f.rect c.output = ⟨0, 7, 0, 6⟩ ∧
        (Span.of f.rect c.output).Borders 0 3 ∧ image.Covers 0 3 ∧
        (Span.of f.rect c.output).Borders 6 3 ∧ ¬ image.Covers 6 3 := by
  intro layout c rect image
  have hc : c.validate = .ok () := by decide +kernel
  have hedges : rect.edges c.output = ⟨0, 5, 0, 4⟩ := by decide +kernel
  obtain ⟨f, hf, hclip, houter, ⟨_, hright, _⟩, _⟩ :=
    the_frame_stands_two_pixels_outside_the_overlay c hc rfl
  change f.rect.edges c.output = (rect.edges c.output).outset 2 at houter
  rw [hedges] at houter
  have hspan : Span.of f.rect c.output = ⟨0, 7, 0, 6⟩ := by
    rw [hclip, houter]
    rfl
  rw [hspan, houter] at hright
  have hbehind : image.Covers 0 3 := by
    change (Span.of rect c.output).Covers 0 3
    rw [hclip, hedges]
    decide
  refine ⟨hc, hedges, f, hf, houter, hspan, ?_⟩
  rw [hspan]
  exact ⟨by decide, hbehind, by decide, hright rfl 6 3 (by decide) rfl⟩

end Plan

end PictureInPicture
