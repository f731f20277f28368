-- The texture points of a quad, over exact rationals. The rasterizer goes along the two axes of the
-- rectangle, and the device goes by the corners of the two triangles of a strip. A turn of a window
-- keeps straight lines straight and evenly divided, so both come to the same point everywhere.
import Mathlib.Tactic.LinearCombination
import PictureInPicture.Gpu.Draw
import PictureInPicture.Proofs.Raster.Centers

namespace PictureInPicture

open Gpu (Vertex quadVertices)

/-! ## Triangles -/

/-- Three corners, or something of each of them. -/
structure Triangle (β : Type) where
  first : β
  second : β
  third : β
  deriving DecidableEq, Repr

def Triangle.map {β γ : Type} (f : β → γ) (t : Triangle β) : Triangle γ :=
  ⟨f t.first, f t.second, f t.third⟩

/-- The triangles of a strip: every corner from the third one on with the two before it. -/
def strip {β : Type} : List β → List (Triangle β)
  | a :: b :: c :: rest => ⟨a, b, c⟩ :: strip (b :: c :: rest)
  | _ => []

theorem strip_map {β γ : Type} (f : β → γ) (l : List β) :
    strip (l.map f) = (strip l).map (Triangle.map f) := by
  induction l with
  | nil => rfl
  | cons a l ih =>
    match l with
    | [] => rfl
    | [_] => rfl
    | b :: c :: rest =>
      rw [List.map_cons] at ih
      simp only [List.map_cons, strip] at ih ⊢
      rw [ih]
      rfl

/-- A point of a triangle, by the weights of the three corners. -/
structure Weights where
  first : ℚ
  second : ℚ
  third : ℚ
  nonneg : 0 ≤ first ∧ 0 ≤ second ∧ 0 ≤ third
  total : first + second + third = 1

namespace Weights

variable (w : Weights)

/-- The mean of three numbers. -/
def mean (x y z : ℚ) : ℚ := w.first * x + w.second * y + w.third * z

def point (t : Triangle (Point ℚ)) : Point ℚ where
  x := w.mean t.first.x t.second.x t.third.x
  y := w.mean t.first.y t.second.y t.third.y

def texPoint (t : Triangle (TexPoint ℚ)) : TexPoint ℚ where
  u := w.mean t.first.u t.second.u t.third.u
  v := w.mean t.first.v t.second.v t.third.v

/-- What the device makes of three vertices at a point of their triangle. -/
def vertex (t : Triangle (Vertex ℚ)) : Vertex ℚ where
  position := w.point (t.map (·.position))
  uv := w.texPoint (t.map (·.uv))

/-- The mean of numbers on a line. -/
theorem mean_line (a b x y z : ℚ) :
    w.mean (a + x * b) (a + y * b) (a + z * b) = a + w.mean x y z * b := by
  unfold mean
  linear_combination a * w.total

theorem mean_rest (x y z : ℚ) : w.mean (1 - x) (1 - y) (1 - z) = 1 - w.mean x y z := by
  unfold mean
  linear_combination w.total

end Weights

/-! ## Places in a rectangle -/

namespace Rect

/-- The point at the fraction `s` of the way from left to right and the fraction `t` of the way from
bottom to top. -/
def point (r : Rect ℚ) (s t : ℚ) : Point ℚ := ⟨r.left + s * r.width, r.bottom + t * r.height⟩

/-- The places of the corners, in the order of the corners. -/
def places : List (Point ℚ) := [⟨0, 0⟩, ⟨1, 0⟩, ⟨0, 1⟩, ⟨1, 1⟩]

variable {r : Rect ℚ}

theorem locate_point (hwidth : r.width ≠ 0) (hheight : r.height ≠ 0) (s t : ℚ) :
    r.locate (r.point s t) = (s, t) := by
  change ((r.left + s * r.width - r.left) / r.width,
    (r.bottom + t * r.height - r.bottom) / r.height) = (s, t)
  rw [add_sub_cancel_left, add_sub_cancel_left, mul_div_cancel_right₀ _ hwidth,
    mul_div_cancel_right₀ _ hheight]

theorem point_locate (hwidth : r.width ≠ 0) (hheight : r.height ≠ 0) (p : Point ℚ) :
    r.point (r.locate p).1 (r.locate p).2 = p := by
  change (⟨r.left + (p.x - r.left) / r.width * r.width,
    r.bottom + (p.y - r.bottom) / r.height * r.height⟩ : Point ℚ) = p
  rw [div_mul_cancel₀ _ hwidth, div_mul_cancel₀ _ hheight, add_sub_cancel, add_sub_cancel]

/-- Every place lies in one of the two triangles of the strip. -/
theorem exists_weights {s t : ℚ} (hs : 0 ≤ s ∧ s ≤ 1) (ht : 0 ≤ t ∧ t ≤ 1) :
    ∃ tri ∈ strip places, ∃ w : Weights, w.point tri = ⟨s, t⟩ := by
  by_cases h : s + t ≤ 1
  · refine ⟨⟨⟨0, 0⟩, ⟨1, 0⟩, ⟨0, 1⟩⟩, List.mem_cons_self .., ?_⟩
    refine ⟨⟨1 - s - t, s, t, ⟨by linarith, hs.1, ht.1⟩, by ring⟩, ?_⟩
    simp [Weights.point, Weights.mean]
  · refine ⟨⟨⟨1, 0⟩, ⟨0, 1⟩, ⟨1, 1⟩⟩, List.mem_cons_of_mem _ (List.mem_cons_self ..), ?_⟩
    refine ⟨⟨1 - t, 1 - s, s + t - 1, ⟨by linarith, by linarith, by linarith⟩, by ring⟩, ?_⟩
    simp [Weights.point, Weights.mean]

end Rect

/-! ## Texture points -/

/-- The point of a window at the fraction `s` of the way from left to right and the fraction `t` of
the way from bottom to top. -/
def Window.point (w : Window ℚ) (s t : ℚ) : TexPoint ℚ :=
  ⟨w.uMin + s * (w.uMax - w.uMin), w.vMax + t * (w.vMin - w.vMax)⟩

namespace Weights

variable (w : Weights) (t : Triangle (Point ℚ))

theorem point_map (r : Rect ℚ) :
    w.point (t.map fun p => r.point p.x p.y) = r.point (w.point t).x (w.point t).y := by
  unfold point Triangle.map Rect.point
  dsimp only
  rw [mean_line, mean_line]

theorem texPoint_map (window : Window ℚ) :
    w.texPoint (t.map fun p => window.point p.x p.y) =
      window.point (w.point t).x (w.point t).y := by
  unfold texPoint point Triangle.map Window.point
  dsimp only
  rw [mean_line, mean_line]

/-- The mean of turned points is the turned mean. -/
theorem texPoint_apply (t : Triangle (TexPoint ℚ)) (rotation : Rotation) :
    w.texPoint (t.map rotation.apply) = rotation.apply (w.texPoint t) := by
  cases rotation with
  | deg0 => rfl
  | deg90 => exact congrArg (TexPoint.mk _) (w.mean_rest _ _ _)
  | deg180 => exact congrArg₂ TexPoint.mk (w.mean_rest _ _ _) (w.mean_rest _ _ _)
  | deg270 => exact congrArg (TexPoint.mk · _) (w.mean_rest _ _ _)

end Weights

namespace Quad

variable {rect : Rect ℚ} {window : Window ℚ} {rotation : Rotation}

/-- The two ways along the axes come to the turned point of the window. -/
theorem uvAt_eq (s t : ℚ) :
    (of rect window rotation).uvAt s t = rotation.apply (window.point s t) := by
  unfold uvAt of lerp Window.point
  cases rotation <;> simp only [Rotation.apply, TexPoint.mk.injEq] <;> constructor <;> ring

/-- A place of the rectangle with the texture point that the rasterizer takes there. -/
def vertexAt (q : Quad ℚ) (place : Point ℚ) : Vertex ℚ :=
  ⟨q.rect.point place.x place.y, q.uvAt place.x place.y⟩

/-- A corner has the position and the texture point of one place. -/
theorem quadVertices_eq (q : Quad ℚ) : quadVertices q = Rect.places.map q.vertexAt := by
  unfold quadVertices vertexAt Rect.places Rect.corners uvs
  simp [Rect.point, Rect.right, Rect.top, uvAt, lerp]

/-- Between the corners of a triangle, too, the device has the texture point of the place. -/
theorem vertex_map (w : Weights) (t : Triangle (Point ℚ)) :
    w.vertex (t.map (of rect window rotation).vertexAt) =
      (of rect window rotation).vertexAt (w.point t) := by
  unfold vertexAt
  simp only [uvAt_eq]
  exact congrArg₂ Vertex.mk (w.point_map t rect)
    ((w.texPoint_apply _ rotation).trans (congrArg rotation.apply (w.texPoint_map t window)))

/-- What the device makes of a position depends on the position only, if the rectangle has an
extent on both axes. -/
theorem uv_of_position (hwidth : rect.width ≠ 0) (hheight : rect.height ≠ 0)
    {t : Triangle (Vertex ℚ)} (ht : t ∈ strip (quadVertices (of rect window rotation)))
    (w : Weights) :
    (w.vertex t).uv = (of rect window rotation).uvAt (rect.locate (w.vertex t).position).1
      (rect.locate (w.vertex t).position).2 := by
  rw [quadVertices_eq, strip_map] at ht
  obtain ⟨corners, _, rfl⟩ := List.mem_map.mp ht
  rw [vertex_map]
  change _ = (of rect window rotation).uvAt
    (rect.locate (rect.point (w.point corners).x (w.point corners).y)).1
    (rect.locate (rect.point (w.point corners).x (w.point corners).y)).2
  rw [Rect.locate_point hwidth hheight]
  rfl

/-- The device has a texture point for every place of the rectangle. -/
theorem exists_vertex (rect : Rect ℚ) (window : Window ℚ) (rotation : Rotation) {s t : ℚ}
    (hs : 0 ≤ s ∧ s ≤ 1) (ht : 0 ≤ t ∧ t ≤ 1) :
    ∃ tri ∈ strip (quadVertices (of rect window rotation)), ∃ w : Weights,
      w.vertex tri = (of rect window rotation).vertexAt ⟨s, t⟩ := by
  obtain ⟨corners, hcorners, w, hw⟩ := Rect.exists_weights hs ht
  refine ⟨corners.map (of rect window rotation).vertexAt, ?_, w, ?_⟩
  · rw [quadVertices_eq, strip_map]
    exact List.mem_map_of_mem hcorners
  · rw [vertex_map, hw]

/-- The rasterizer and the device sample the same texture points. At every place of its rectangle a
quad has the turned point of its window, and so have the triangles of the strip at all of their
points: each corner has the position and the texture point of one place, every place lies in one of
the triangles, and between the corners positions and texture points go along. For a pixel that the
rectangle takes, the device comes to the texture point that the rasterizer shows there, whichever
triangle holds its middle. -/
theorem triangles_agree_with_the_axes (rect : Rect ℚ) (window : Window ℚ) (rotation : Rotation) :
    let quad := of rect window rotation
    let triangles := strip (quadVertices quad)
    (∀ s t, quad.uvAt s t = rotation.apply (window.point s t)) ∧
      quadVertices quad = Rect.places.map quad.vertexAt ∧
      (∀ s t, 0 ≤ s ∧ s ≤ 1 → 0 ≤ t ∧ t ≤ 1 →
        ∃ corners ∈ strip Rect.places, ∃ w : Weights, w.point corners = ⟨s, t⟩) ∧
      (∀ corners ∈ strip Rect.places, corners.map quad.vertexAt ∈ triangles ∧
        ∀ w : Weights, w.vertex (corners.map quad.vertexAt) = quad.vertexAt (w.point corners)) ∧
      (rect.width ≠ 0 → rect.height ≠ 0 → ∀ tri ∈ triangles, ∀ (w : Weights) s t,
        (w.vertex tri).position = rect.point s t → (w.vertex tri).uv = quad.uvAt s t) ∧
      ∀ output x y, (Span.of rect output).Covers x y →
        (∃ tri ∈ triangles, ∃ w : Weights,
          w.vertex tri = ⟨center output x y, quad.uvAtPixel output x y⟩) ∧
          ∀ tri ∈ triangles, ∀ w : Weights, (w.vertex tri).position = center output x y →
            (w.vertex tri).uv = quad.uvAtPixel output x y := by
  intro quad triangles
  refine ⟨uvAt_eq, quadVertices_eq quad, fun s t => Rect.exists_weights, ?_, ?_, ?_⟩
  · intro corners hcorners
    refine ⟨?_, fun w => vertex_map w corners⟩
    change _ ∈ strip (quadVertices quad)
    rw [quadVertices_eq, strip_map]
    exact List.mem_map_of_mem hcorners
  · intro hwidth hheight tri htri w s t hposition
    rw [uv_of_position hwidth hheight htri, hposition, Rect.locate_point hwidth hheight]
  · intro output x y hcovers
    obtain ⟨_, _, hholds⟩ := (Span.covers_iff rect output x y).mp hcovers
    obtain ⟨hwidth, hheight, hs, hs', ht, ht'⟩ := Rect.locate_of_holds hholds
    constructor
    · obtain ⟨tri, htri, w, hw⟩ := exists_vertex rect window rotation ⟨hs, hs'.le⟩ ⟨ht.le, ht'⟩
      refine ⟨tri, htri, w, hw.trans ?_⟩
      exact congrArg (Vertex.mk · _) (Rect.point_locate hwidth hheight _)
    · intro tri htri w hposition
      rw [uv_of_position hwidth hheight htri, hposition]
      rfl

/-- The middle of an output of one pixel lies on the diagonal, in both triangles of the strip. The
one and the other have the texture point there that the rasterizer shows. -/
theorem the_diagonal_belongs_to_both_triangles :
    let rect : Rect ℚ := .full
    let quad := of rect ⟨0, 1 / 2, 0, 1⟩ .deg90
    (Span.of rect ⟨1, 1⟩).Covers 0 0 ∧ quad.uvAtPixel ⟨1, 1⟩ 0 0 = ⟨1 / 2, 3 / 4⟩ ∧
      ∀ tri ∈ strip (quadVertices quad), ∃ w : Weights,
        w.vertex tri = ⟨center ⟨1, 1⟩ 0 0, ⟨1 / 2, 3 / 4⟩⟩ := by
  intro rect quad
  have hcovers : (Span.of rect ⟨1, 1⟩).Covers 0 0 := by decide +kernel
  have huv : quad.uvAtPixel ⟨1, 1⟩ 0 0 = ⟨1 / 2, 3 / 4⟩ := by decide +kernel
  obtain ⟨_, hvertices, _, _, _, hpixels⟩ :=
    triangles_agree_with_the_axes rect ⟨0, 1 / 2, 0, 1⟩ .deg90
  obtain ⟨_, hagree⟩ := hpixels ⟨1, 1⟩ 0 0 hcovers
  refine ⟨hcovers, huv, ?_⟩
  intro tri htri
  have hposition : ∃ w : Weights, (w.vertex tri).position = center ⟨1, 1⟩ 0 0 := by
    rw [hvertices, strip_map] at htri
    rcases List.mem_cons.mp htri with rfl | htri
    · exact ⟨⟨0, 1 / 2, 1 / 2, by norm_num, by norm_num⟩, by decide +kernel⟩
    · cases List.mem_singleton.mp htri
      exact ⟨⟨1 / 2, 1 / 2, 0, by norm_num, by norm_num⟩, by decide +kernel⟩
  obtain ⟨w, hw⟩ := hposition
  exact ⟨w, congrArg₂ Vertex.mk hw ((hagree tri htri w hw).trans huv)⟩

end Quad

end PictureInPicture
