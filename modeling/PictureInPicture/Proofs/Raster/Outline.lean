-- The line around a rectangle. Its two loops blend each outermost pixel of the span once and touch
-- no other one, also where the span is a single row, a single column or a single pixel.
import PictureInPicture.Proofs.Raster.Reference

namespace PictureInPicture

/-! ## How often a loop comes to a pixel -/

namespace Span

variable (s : Span) (x y : Nat)

theorem count_border : s.border.count (x, y) = if s.Borders x y then 1 else 0 := by
  rw [s.nodup_border.count]
  exact if_congr mem_border rfl rfl

theorem border_of_isEmpty {s : Span} (h : s.isEmpty = true) : s.border = [] := by
  unfold border
  rw [if_pos h]

end Span

/-! ## The line -/

namespace Canvas

variable {α : Type} [Scalar α] {c : Canvas α} {rect : Rect α}

/-- A line whose span lies in the output is drawn to its end. -/
theorem blended_of_outline (hc : c.IsWhole)
    (hspan : ∀ x y, (Span.of rect c.size).Covers x y →
      x < c.size.width.toNat ∧ y < c.size.height.toNat) (color : Color α) :
    ∃ c', c.outline rect color = .ok c' ∧
      Blended (fun _ _ => .ok color) (Span.of rect c.size).border c c' := by
  rw [outline_eq]
  apply blended_of_colors hc (Span.nodup_border _)
  · intro x y hmem
    exact hspan x y (Span.mem_border.mp hmem).1
  · intro x y _
    exact ⟨color, rfl⟩

/-- A line around a rectangle whose span lies in the output blends its color once into each pixel of
the first and the last row and of the first and the last column, and into no other pixel. So each
pixel of the output is as it was, with the color over it if it is one of those. A line around an
empty span changes nothing. -/
theorem outlines_touch_each_border_pixel_once (hc : c.IsWhole)
    (hspan : ∀ x y, (Span.of rect c.size).Covers x y →
      x < c.size.width.toNat ∧ y < c.size.height.toNat) (color : Color α) :
    let span := Span.of rect c.size
    (∃ cells : List (Nat × Nat),
      (∀ x y, cells.count (x, y) = if span.Borders x y then 1 else 0) ∧
        c.outline rect color = cells.foldlM (fun c cell => c.blend cell.1 cell.2 color) c) ∧
      ∃ c', c.outline rect color = .ok c' ∧ c'.Alike c ∧
        (∀ x y, x < c.size.width.toNat → y < c.size.height.toNat →
          ∃ dst, c.pixel? x y = some dst ∧
            c'.pixel? x y = some (if span.Borders x y then color.atop dst else dst)) ∧
        (span.isEmpty = true → c' = c) := by
  intro span
  refine ⟨⟨span.border, span.count_border, outline_eq c rect color⟩, ?_⟩
  obtain ⟨c', hdrawn, hblended⟩ := blended_of_outline hc hspan color
  refine ⟨c', hdrawn, hblended.alike, ?_, ?_⟩
  · intro x y hx hy
    exact hblended.pixel_of_color hc hx hy Span.mem_border
  · intro hempty
    rw [outline_eq, Span.border_of_isEmpty hempty] at hdrawn
    exact (Except.ok.inj hdrawn).symm

/-- A line around a single column of pixels: the column is the first and the last one. -/
theorem a_line_around_a_column_is_drawn_once :
    let c : Canvas Float32 := .blank ⟨3, 3⟩
    let rect : Rect Float32 := ⟨0, -1, Scalar.half, 2⟩
    let color : Color Float32 := ⟨1, 1, 0, Scalar.half⟩
    Span.of rect c.size = ⟨1, 2, 0, 3⟩ ∧
      ∃ c', c.outline rect color = .ok c' ∧ c'.pixel? 1 1 = some (color.atop .black) ∧
        c'.pixel? 0 1 = some .black := by
  intro c rect color
  have hc : c.IsWhole := Array.size_replicate
  have hspan : Span.of rect c.size = ⟨1, 2, 0, 3⟩ := by decide +kernel
  have hinside : ∀ x y, (Span.of rect c.size).Covers x y →
      x < c.size.width.toNat ∧ y < c.size.height.toNat :=
    fun _ _ => Span.lt_of_covers (by decide) (by decide) (by decide) (by decide)
  obtain ⟨_, c', hdrawn, _, hpixels, _⟩ :=
    outlines_touch_each_border_pixel_once hc hinside color
  refine ⟨hspan, c', hdrawn, ?_, ?_⟩
  · obtain ⟨dst, hdst, hafter⟩ := hpixels 1 1 (by decide) (by decide)
    cases hdst
    rw [hafter, hspan]
    rfl
  · obtain ⟨dst, hdst, hafter⟩ := hpixels 0 1 (by decide) (by decide)
    cases hdst
    rw [hafter, hspan]
    rfl

end Canvas

end PictureInPicture
