-- The pixels that a step of drawing goes over, as one list. Whatever order the loops have, the
-- list holds each pixel that the step covers once, and no other.
import Mathlib.Data.List.Nodup
import PictureInPicture.Proofs.Raster.Residue

namespace PictureInPicture

/-! ## Lists of pixels -/

namespace Span

variable {s : Span} {x y : Nat}

/-- All pixels of a span, row by row. -/
def cells (s : Span) : List (Nat × Nat) := s.rows.flatMap fun y => s.columns.map fun x => (x, y)

/-- Two pixels, or one where they are the same. -/
def pair (apart : Prop) [Decidable apart] (p q : Nat × Nat) : List (Nat × Nat) :=
  if apart then [p, q] else [p]

/-- The first and the last row, in pairs. -/
def caps (s : Span) : List (Nat × Nat) :=
  s.columns.flatMap fun x => pair (s.bottom - 1 ≠ s.top) (x, s.top) (x, s.bottom - 1)

/-- What the first and the last row leave of the first and the last column, in pairs. -/
def sides (s : Span) : List (Nat × Nat) :=
  (List.range' (s.top + 1) (s.bottom - 1 - (s.top + 1))).flatMap fun y =>
    pair (s.right - 1 ≠ s.left) (s.left, y) (s.right - 1, y)

/-- The outermost pixels of a span. -/
def border (s : Span) : List (Nat × Nat) := if s.isEmpty then [] else s.caps ++ s.sides

theorem mem_columns : x ∈ s.columns ↔ s.left ≤ x ∧ x < s.right := by
  unfold columns
  rw [List.mem_range'_1]
  omega

theorem mem_rows : y ∈ s.rows ↔ s.top ≤ y ∧ y < s.bottom := by
  unfold rows
  rw [List.mem_range'_1]
  omega

theorem isEmpty_eq_false : s.isEmpty = false ↔ s.left < s.right ∧ s.top < s.bottom := by
  unfold isEmpty
  rw [Bool.or_eq_false_iff, decide_eq_false_iff_not, decide_eq_false_iff_not, Nat.not_le,
    Nat.not_le]

theorem mem_cells : (x, y) ∈ s.cells ↔ s.Covers x y := by
  unfold cells Covers
  rw [List.mem_flatMap]
  constructor
  · rintro ⟨row, hrow, hcell⟩
    obtain ⟨column, hcolumn, heq⟩ := List.mem_map.mp hcell
    cases heq
    rw [mem_rows] at hrow
    rw [mem_columns] at hcolumn
    exact ⟨hcolumn.1, hcolumn.2, hrow.1, hrow.2⟩
  · rintro ⟨hleft, hright, htop, hbottom⟩
    exact ⟨y, mem_rows.mpr ⟨htop, hbottom⟩,
      List.mem_map.mpr ⟨x, mem_columns.mpr ⟨hleft, hright⟩, rfl⟩⟩

theorem cells_of_isEmpty (h : s.isEmpty = true) : s.cells = [] := by
  apply List.eq_nil_iff_forall_not_mem.mpr
  rintro ⟨x, y⟩ hcell
  have hspan : s.left < s.right ∧ s.top < s.bottom := by
    have hcovers := mem_cells.mp hcell
    unfold Covers at hcovers
    omega
  rw [isEmpty_eq_false.mpr hspan] at h
  cases h

theorem nodup_cells (s : Span) : s.cells.Nodup := by
  unfold cells
  rw [List.nodup_flatMap]
  constructor
  · intro y _
    apply List.Nodup.map
    · intro x x' h
      cases h
      rfl
    · exact List.nodup_range'
  · apply List.Pairwise.imp _ (List.nodup_range' : s.rows.Nodup)
    intro y y' hne cell hcell hcell'
    obtain ⟨_, _, rfl⟩ := List.mem_map.mp hcell
    obtain ⟨_, _, heq⟩ := List.mem_map.mp hcell'
    cases heq
    exact hne rfl

theorem mem_pair {apart : Prop} [Decidable apart] {p q r : Nat × Nat} :
    r ∈ pair apart p q ↔ r = p ∨ apart ∧ r = q := by
  unfold pair
  split <;> simp_all

theorem mem_caps : (x, y) ∈ s.caps ↔
    (s.left ≤ x ∧ x < s.right) ∧ (y = s.top ∨ s.bottom - 1 ≠ s.top ∧ y = s.bottom - 1) := by
  unfold caps
  rw [List.mem_flatMap]
  constructor
  · rintro ⟨column, hcolumn, hcell⟩
    rw [mem_columns] at hcolumn
    rcases mem_pair.mp hcell with heq | ⟨hapart, heq⟩
    · cases heq
      exact ⟨hcolumn, .inl rfl⟩
    · cases heq
      exact ⟨hcolumn, .inr ⟨hapart, rfl⟩⟩
  · rintro ⟨hcolumn, hrow⟩
    refine ⟨x, mem_columns.mpr hcolumn, mem_pair.mpr ?_⟩
    rcases hrow with rfl | ⟨hapart, rfl⟩
    · exact .inl rfl
    · exact .inr ⟨hapart, rfl⟩

theorem mem_sides : (x, y) ∈ s.sides ↔
    (s.top < y ∧ y < s.bottom - 1) ∧ (x = s.left ∨ s.right - 1 ≠ s.left ∧ x = s.right - 1) := by
  have hrows : ∀ row, row ∈ List.range' (s.top + 1) (s.bottom - 1 - (s.top + 1)) ↔
      s.top < row ∧ row < s.bottom - 1 := by
    intro row
    rw [List.mem_range'_1]
    omega
  unfold sides
  rw [List.mem_flatMap]
  constructor
  · rintro ⟨row, hrow, hcell⟩
    rw [hrows] at hrow
    rcases mem_pair.mp hcell with heq | ⟨hapart, heq⟩
    · cases heq
      exact ⟨hrow, .inl rfl⟩
    · cases heq
      exact ⟨hrow, .inr ⟨hapart, rfl⟩⟩
  · rintro ⟨hrow, hcolumn⟩
    refine ⟨y, (hrows y).mpr hrow, mem_pair.mpr ?_⟩
    rcases hcolumn with rfl | ⟨hapart, rfl⟩
    · exact .inl rfl
    · exact .inr ⟨hapart, rfl⟩

theorem mem_border : (x, y) ∈ s.border ↔ s.Borders x y := by
  unfold border Borders Covers
  cases hempty : s.isEmpty with
  | true =>
    rw [if_pos rfl]
    have hnone : ¬ (s.left < s.right ∧ s.top < s.bottom) := by
      rw [← isEmpty_eq_false, hempty]
      nofun
    constructor
    · nofun
    · omega
  | false =>
    have hspan := isEmpty_eq_false.mp hempty
    rw [if_neg (by nofun), List.mem_append, mem_caps, mem_sides]
    omega

/-- Pairs that can be told apart by one of their numbers. -/
theorem nodup_pairs (key : Nat × Nat → Nat) {l : List Nat} (hl : l.Nodup) {apart : Prop}
    [Decidable apart] {p q : Nat → Nat × Nat} (hp : ∀ t, key (p t) = t) (hq : ∀ t, key (q t) = t)
    (hpq : apart → ∀ t, p t ≠ q t) : (l.flatMap fun t => pair apart (p t) (q t)).Nodup := by
  have key_of_mem : ∀ {t cell}, cell ∈ pair apart (p t) (q t) → key cell = t := by
    intro t cell hcell
    rcases mem_pair.mp hcell with rfl | ⟨_, rfl⟩
    · exact hp t
    · exact hq t
  rw [List.nodup_flatMap]
  constructor
  · intro t _
    unfold pair
    split
    · rename_i hapart
      simp [hpq hapart t]
    · exact List.nodup_singleton _
  · apply List.Pairwise.imp _ hl
    intro t t' hne cell hcell hcell'
    exact hne ((key_of_mem hcell).symm.trans (key_of_mem hcell'))

theorem nodup_border (s : Span) : s.border.Nodup := by
  have hcaps : s.caps.Nodup := by
    apply nodup_pairs Prod.fst (List.nodup_range' : s.columns.Nodup)
    · intro x
      rfl
    · intro x
      rfl
    · intro hapart x heq
      exact hapart (Prod.ext_iff.mp heq).2.symm
  have hsides : s.sides.Nodup := by
    apply nodup_pairs Prod.snd List.nodup_range'
    · intro y
      rfl
    · intro y
      rfl
    · intro hapart y heq
      exact hapart (Prod.ext_iff.mp heq).1.symm
  unfold border
  split
  · exact List.nodup_nil
  · apply List.Nodup.append hcaps hsides
    rintro ⟨x, y⟩ hcap hside
    rw [mem_caps] at hcap
    rw [mem_sides] at hside
    omega

end Span

/-! ## The loops over them -/

namespace Canvas

variable {α : Type}

/-- A loop inside a loop goes over the lists of the inner ones, put end to end. -/
theorem foldlM_flatMap {β γ : Type} (f : Canvas α → γ → Except Crash (Canvas α)) (g : β → List γ)
    (l : List β) (c : Canvas α) :
    (l.flatMap g).foldlM f c = l.foldlM (fun c b => (g b).foldlM f c) c := by
  induction l generalizing c with
  | nil => rfl
  | cons b l ih =>
    rw [List.flatMap_cons, List.foldlM_append, List.foldlM_cons]
    apply bind_congr
    exact ih

theorem foldlM_pair {apart : Prop} [Decidable apart]
    (f : Canvas α → Nat × Nat → Except Crash (Canvas α)) (p q : Nat × Nat) (c : Canvas α) :
    (Span.pair apart p q).foldlM f c = do
      let c ← f c p
      if apart then f c q else return c := by
  unfold Span.pair
  split
  · rw [List.foldlM_cons]
    apply bind_congr
    intro next
    rw [List.foldlM_cons]
    exact bind_pure _
  · rfl

variable [Scalar α]

/-- Blends into one pixel the color that it has in a picture. -/
def dab (shade : Nat → Nat → Except Crash (Color α)) (c : Canvas α) (cell : Nat × Nat) :
    Except Crash (Canvas α) :=
  match shade cell.1 cell.2 with
  | .error crash => .error crash
  | .ok color => c.blend cell.1 cell.2 color

theorem paint_eq (c : Canvas α) (span : Span) (shade : Nat → Nat → Except Crash (Color α)) :
    c.paint span shade = span.cells.foldlM (dab shade) c := by
  unfold paint
  cases hempty : span.isEmpty with
  | true =>
    rw [if_pos rfl, Span.cells_of_isEmpty hempty]
    rfl
  | false =>
    unfold Span.cells
    rw [if_neg (by nofun), foldlM_flatMap]
    dsimp only
    congr 1
    funext c y
    rw [List.foldlM_map]
    rfl

theorem outline_eq (c : Canvas α) (rect : Rect α) (color : Color α) :
    c.outline rect color =
      (Span.of rect c.size).border.foldlM (dab fun _ _ => .ok color) c := by
  unfold outline Span.border
  dsimp only
  split
  · rfl
  · unfold Span.caps Span.sides
    rw [List.foldlM_append, foldlM_flatMap]
    simp only [foldlM_flatMap, foldlM_pair]
    rfl

end Canvas

namespace DrawOp

variable {α : Type} [Scalar α]

/-- The pixels that a step blends into, in the order in which it does. -/
def cells (output : Size) : DrawOp α → List (Nat × Nat)
  | fill rect _ => (Span.of rect output).cells
  | outline rect _ => (Span.of rect output).border
  | layer shown => (Span.of shown.quad.rect output).cells

/-- The pixel is one that a step covers: any of the span of a rectangle or of a layer, and one of
the border of an outline. -/
def Covers (op : DrawOp α) (output : Size) (x y : Nat) : Prop :=
  match op with
  | fill rect _ => (Span.of rect output).Covers x y
  | outline rect _ => (Span.of rect output).Borders x y
  | layer shown => (Span.of shown.quad.rect output).Covers x y

instance (op : DrawOp α) (output : Size) (x y : Nat) : Decidable (op.Covers output x y) := by
  unfold Covers
  split <;> infer_instance

/-- The color that a step has at a pixel. A layer shows its source there. -/
def colorAt (op : DrawOp α) (textures : Both Texture) (output : Size) (x y : Nat) :
    Except Crash (Color α) :=
  match op with
  | fill _ color => .ok color
  | outline _ color => .ok color
  | layer shown =>
    (textures.get shown.role).sample (shown.quad.uvAtPixel output x y) shown.opacity

theorem mem_cells {op : DrawOp α} {output : Size} {x y : Nat} :
    (x, y) ∈ op.cells output ↔ op.Covers output x y := by
  cases op with
  | fill => exact Span.mem_cells
  | outline => exact Span.mem_border
  | layer => exact Span.mem_cells

theorem nodup_cells (op : DrawOp α) (output : Size) : (op.cells output).Nodup := by
  cases op with
  | fill => exact Span.nodup_cells _
  | outline => exact Span.nodup_border _
  | layer => exact Span.nodup_cells _

end DrawOp

/-- A step of drawing blends its colors into its pixels, one after the other. -/
theorem Canvas.draw_eq {α : Type} [Scalar α] (c : Canvas α) (textures : Both Texture)
    (op : DrawOp α) :
    c.draw textures op = (op.cells c.size).foldlM (dab (op.colorAt textures c.size)) c := by
  cases op with
  | fill rect color => exact paint_eq c _ fun _ _ => .ok color
  | outline rect color => exact outline_eq c rect color
  | layer shown => exact paint_eq c _ _

end PictureInPicture
