-- Which pixels a rectangle takes, over exact rationals: those whose middles it holds. On the left
-- and the upper edge a middle belongs to the rectangle, on the right and the lower edge it does
-- not, so rectangles that share an edge leave no gap and take no pixel twice.
import PictureInPicture.Proofs.Raster.Cells
import PictureInPicture.Proofs.Scalar.Wholes

namespace PictureInPicture

/-! ## The plain rule -/

/-- The middle of a pixel in the two axes of the output. -/
def center (output : Size) (x y : Nat) : Point ℚ where
  x := (x + 1 / 2) / output.width.toNat * 2 - 1
  y := 1 - (y + 1 / 2) / output.height.toNat * 2

namespace Rect

/-- The point belongs to the rectangle. -/
def Holds (r : Rect ℚ) (p : Point ℚ) : Prop :=
  r.left ≤ p.x ∧ p.x < r.right ∧ r.bottom < p.y ∧ p.y ≤ r.top

instance (r : Rect ℚ) (p : Point ℚ) : Decidable (r.Holds p) := by
  unfold Holds; infer_instance

/-- One of the rectangles ends where the other one begins, on the one axis or the other. -/
def Abuts (r r' : Rect ℚ) : Prop :=
  r.right = r'.left ∨ r'.right = r.left ∨ r.top = r'.bottom ∨ r'.top = r.bottom

variable {r r' : Rect ℚ} {p : Point ℚ}

theorem Abuts.apart (h : r.Abuts r') (hp : r.Holds p) : ¬ r'.Holds p := by
  rintro ⟨hleft', hright', hbottom', htop'⟩
  obtain ⟨hleft, hright, hbottom, htop⟩ := hp
  rcases h with heq | heq | heq | heq <;> linarith

/-- A rectangle that holds a point has an extent on both axes, and the point divides it. -/
theorem locate_of_holds (h : r.Holds p) :
    r.width ≠ 0 ∧ r.height ≠ 0 ∧
      0 ≤ (r.locate p).1 ∧ (r.locate p).1 < 1 ∧ 0 < (r.locate p).2 ∧ (r.locate p).2 ≤ 1 := by
  obtain ⟨hleft, hright, hbottom, htop⟩ := h
  change p.x < r.left + r.width at hright
  change p.y ≤ r.bottom + r.height at htop
  have hwidth : 0 < r.width := by linarith
  have hheight : 0 < r.height := by linarith
  change r.width ≠ 0 ∧ r.height ≠ 0 ∧ 0 ≤ (p.x - r.left) / r.width ∧
    (p.x - r.left) / r.width < 1 ∧ 0 < (p.y - r.bottom) / r.height ∧
      (p.y - r.bottom) / r.height ≤ 1
  rw [div_lt_one hwidth, div_le_one hheight]
  exact ⟨hwidth.ne', hheight.ne', div_nonneg (by linarith) hwidth.le, by linarith,
    div_pos (by linarith) hheight, by linarith⟩

end Rect

/-! ## Edges -/

namespace Span

theorem edge_rat (position : ℚ) (side : UInt32) :
    edge position side = min side.toNat ⌈position⌉₊ := by
  have hside : side.toNat ≤ last := Nat.le_of_lt_succ side.toNat_lt
  have hlimit : Scalar.whole (side.toNat : ℚ) = side.toNat := by
    rw [Scalar.whole_rat, Nat.floor_natCast]
  unfold edge
  change min last (if (side.toNat : ℚ) < position then Scalar.whole (side.toNat : ℚ)
    else Scalar.ceil position) = _
  rw [hlimit, Scalar.ceil_rat]
  split
  · rename_i habove
    have hle : side.toNat ≤ ⌈position⌉₊ := by
      exact_mod_cast habove.le.trans (Nat.le_ceil position)
    rw [min_eq_right hside, min_eq_left hle]
  · rename_i hbelow
    have hle : ⌈position⌉₊ ≤ side.toNat := Nat.ceil_le.mpr (not_lt.mp hbelow)
    rw [min_eq_right (hle.trans hside), min_eq_right hle]

variable {side : UInt32} {n : Nat}

theorem edge_le_iff {position : ℚ} (hn : n < side.toNat) :
    edge position side ≤ n ↔ position ≤ n := by
  rw [edge_rat, min_le_iff, Nat.ceil_le, or_iff_right (Nat.not_le.mpr hn)]

/-- A column is at or after an edge if its middle is. -/
theorem column_le_iff {x : ℚ} (hn : n < side.toNat) :
    column x side ≤ n ↔ x ≤ (n + 1 / 2) / side.toNat * 2 - 1 := by
  have hpos : (0 : ℚ) < side.toNat := by exact_mod_cast Nat.zero_lt_of_lt hn
  have hedge : column x side ≤ n ↔ (x + 1) / 2 * side.toNat - 1 / 2 ≤ n := edge_le_iff hn
  rw [hedge, sub_le_iff_le_add, ← le_div_iff₀ hpos, div_le_iff₀ two_pos, ← le_sub_iff_add_le]

/-- A row is at or after an edge if its middle is not above it. -/
theorem row_le_iff {y : ℚ} (hn : n < side.toNat) :
    row y side ≤ n ↔ 1 - (n + 1 / 2) / side.toNat * 2 ≤ y := by
  have hpos : (0 : ℚ) < side.toNat := by exact_mod_cast Nat.zero_lt_of_lt hn
  have hedge : row y side ≤ n ↔ (1 - y) / 2 * side.toNat - 1 / 2 ≤ n := edge_le_iff hn
  rw [hedge, sub_le_iff_le_add, ← le_div_iff₀ hpos, div_le_iff₀ two_pos, sub_le_comm]

theorem edge_le_side (position : ℚ) : edge position side ≤ side.toNat := by
  rw [edge_rat]
  exact min_le_left _ _

/-- The pixels of a span are those of the output whose middles the rectangle holds. -/
theorem covers_iff (r : Rect ℚ) (output : Size) (x y : Nat) :
    (of r output).Covers x y ↔
      x < output.width.toNat ∧ y < output.height.toNat ∧ r.Holds (center output x y) := by
  have hright : (of r output).right ≤ output.width.toNat := edge_le_side _
  have hbottom : (of r output).bottom ≤ output.height.toNat := edge_le_side _
  unfold Covers
  by_cases hx : x < output.width.toNat
  · by_cases hy : y < output.height.toNat
    · have hleft : (of r output).left ≤ x ↔ r.left ≤ (center output x y).x := column_le_iff hx
      have hright : x < (of r output).right ↔ (center output x y).x < r.right := by
        rw [← not_le, ← not_le]
        exact not_congr (column_le_iff hx)
      have htop : (of r output).top ≤ y ↔ (center output x y).y ≤ r.top := row_le_iff hy
      have hbottom : y < (of r output).bottom ↔ r.bottom < (center output x y).y := by
        rw [← not_le, ← not_le]
        exact not_congr (row_le_iff hy)
      rw [hleft, hright, htop, hbottom, and_iff_right hx, and_iff_right hy, Rect.Holds,
        and_comm (a := r.bottom < _)]
    · omega
  · omega

/-! ## Rectangles that share an edge -/

variable {r r' : Rect ℚ} {output : Size}

theorem count_cells_of_abuts (h : r.Abuts r') (x y : Nat) :
    ((of r output).cells ++ (of r' output).cells).count (x, y) =
      if x < output.width.toNat ∧ y < output.height.toNat ∧
        (r.Holds (center output x y) ∨ r'.Holds (center output x y)) then 1 else 0 := by
  have happart : r.Holds (center output x y) → ¬ r'.Holds (center output x y) := h.apart
  rw [List.count_append, (nodup_cells _).count, (nodup_cells _).count]
  simp only [mem_cells, covers_iff]
  by_cases hx : x < output.width.toNat ∧ y < output.height.toNat
  · by_cases hr : r.Holds (center output x y)
    · simp [hx, hr, happart hr]
    · simp [hx, hr]
  · simp [← and_assoc, hx]

/-- Rectangles that share an edge take the pixels of a third one if they hold its points. -/
theorem cells_of_abuts (h : r.Abuts r') {u : Rect ℚ}
    (hu : ∀ p, u.Holds p ↔ r.Holds p ∨ r'.Holds p) :
    ((of r output).cells ++ (of r' output).cells).Perm (of u output).cells := by
  have hdisjoint : (of r output).cells.Disjoint (of r' output).cells := by
    rintro ⟨x, y⟩ hcell hcell'
    obtain ⟨_, _, hholds⟩ := (covers_iff r output x y).mp (mem_cells.mp hcell)
    obtain ⟨_, _, hholds'⟩ := (covers_iff r' output x y).mp (mem_cells.mp hcell')
    exact h.apart hholds hholds'
  apply (List.perm_ext_iff_of_nodup ((nodup_cells _).append (nodup_cells _) hdisjoint)
    (nodup_cells _)).mpr
  rintro ⟨x, y⟩
  rw [List.mem_append, mem_cells, mem_cells, mem_cells, covers_iff, covers_iff, covers_iff, hu,
    ← and_or_left, ← and_or_left]

end Span

/-! ## The loops -/

namespace Canvas

variable {α : Type} [Scalar α] (c : Canvas α)

/-- Two rectangles that are filled one after the other. -/
theorem fill_fill (r r' : Rect α) (color : Color α) :
    (do let c ← c.fill r color; c.fill r' color) =
      ((Span.of r c.size).cells ++ (Span.of r' c.size).cells).foldlM
        (dab fun _ _ => .ok color) c := by
  have hfirst : c.fill r color =
      (Span.of r c.size).cells.foldlM (dab fun _ _ => .ok color) c := paint_eq c _ _
  rw [List.foldlM_append, ← hfirst]
  cases hfill : c.fill r color with
  | error => rfl
  | ok next =>
    have hsize : next.size = c.size := (alike_paint hfill).1
    change next.fill r' color = (Span.of r' c.size).cells.foldlM (dab fun _ _ => .ok color) next
    rw [← hsize]
    exact paint_eq next _ _

/-- Over exact rationals a pixel is one of a span if and only if the rectangle holds its middle.
Rectangles that share an edge take each pixel of their union once: to fill both of them is one loop
that comes to each of these once, and to no other, and together they take the pixels of any
rectangle that holds the points of the two. A layer takes for each of its pixels the texture point
at the place of the middle in the rectangle, which is at least 0 and less than 1 from the left, and
more than 0 and at most 1 from below, and never divides by zero for that. -/
theorem pixels_are_taken_by_their_middles (output : Size) :
    (∀ (r : Rect ℚ) x y, (Span.of r output).Covers x y ↔
      x < output.width.toNat ∧ y < output.height.toNat ∧ r.Holds (center output x y)) ∧
      (∀ r r' : Rect ℚ, r.Abuts r' →
        let cells := (Span.of r output).cells ++ (Span.of r' output).cells
        (∀ x y, cells.count (x, y) =
          if x < output.width.toNat ∧ y < output.height.toNat ∧
            (r.Holds (center output x y) ∨ r'.Holds (center output x y)) then 1 else 0) ∧
          (∀ (c : Canvas ℚ) color, c.size = output →
            (do let c ← c.fill r color; c.fill r' color) =
              cells.foldlM (fun c cell => c.blend cell.1 cell.2 color) c) ∧
          ∀ u : Rect ℚ, (∀ p, u.Holds p ↔ r.Holds p ∨ r'.Holds p) →
            cells.Perm (Span.of u output).cells) ∧
      ∀ (c : Canvas ℚ) textures (layer : Layer ℚ), c.size = output →
        let rect := layer.quad.rect
        let cells := (Span.of rect output).cells
        let s := fun x y => ((center output x y).x - rect.left) / rect.width
        let t := fun x y => ((center output x y).y - rect.bottom) / rect.height
        c.drawLayer textures layer = cells.foldlM (dab fun x y =>
          (textures.get layer.role).sample (layer.quad.uvAt (s x y) (t x y)) layer.opacity) c ∧
          ∀ x y, (x, y) ∈ cells →
            (output.width.toNat : ℚ) ≠ 0 ∧ (output.height.toNat : ℚ) ≠ 0 ∧
              rect.width ≠ 0 ∧ rect.height ≠ 0 ∧
              0 ≤ s x y ∧ s x y < 1 ∧ 0 < t x y ∧ t x y ≤ 1 := by
  refine ⟨fun r => Span.covers_iff r output, ?_, ?_⟩
  · intro r r' habuts cells
    refine ⟨Span.count_cells_of_abuts habuts, ?_, fun _ => Span.cells_of_abuts habuts⟩
    rintro c color rfl
    exact fill_fill c r r' color
  · rintro c textures layer rfl rect cells s t
    refine ⟨paint_eq c _ _, ?_⟩
    intro x y hcell
    obtain ⟨hx, hy, hholds⟩ := (Span.covers_iff rect c.size x y).mp (Span.mem_cells.mp hcell)
    refine ⟨?_, ?_, Rect.locate_of_holds hholds⟩
    · exact_mod_cast Nat.ne_zero_of_lt hx
    · exact_mod_cast Nat.ne_zero_of_lt hy

/-- Of three columns the left half of the output has one and the right half two: the middle of the
second column lies on the edge between them. -/
theorem the_middle_column_is_in_the_right_half :
    let left : Rect ℚ := ⟨-1, -1, 1, 2⟩
    let right : Rect ℚ := ⟨0, -1, 1, 2⟩
    left.Abuts right ∧
      ((Span.of left ⟨3, 1⟩).cells ++ (Span.of right ⟨3, 1⟩).cells).count (1, 0) = 1 ∧
      ¬ (Span.of left ⟨3, 1⟩).Covers 1 0 := by
  intro left right
  have habuts : left.Abuts right := .inl (by decide +kernel)
  obtain ⟨hcovers, hunion, _⟩ := pixels_are_taken_by_their_middles ⟨3, 1⟩
  obtain ⟨hcount, _, _⟩ := hunion left right habuts
  refine ⟨habuts, ?_, ?_⟩
  · rw [hcount]
    decide +kernel
  · rw [hcovers]
    decide +kernel

end Canvas

end PictureInPicture
