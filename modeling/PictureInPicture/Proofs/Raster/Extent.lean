-- How far spans go. The edges of a span are held inside the axes as single precision has them. Up
-- to 2 ^ 24 these are the axes of the output. A longer axis may be rounded up, and then spans leave
-- the output. The whole output is covered up to 2 ^ 23, and beyond if nothing is rounded down.
import PictureInPicture.Proofs.Raster.Safety
import PictureInPicture.Proofs.Scalar.Wholes

namespace PictureInPicture

open Single

/-! ## Axes in single precision -/

namespace Span

/-- The number of pixels that an axis has in single precision. -/
def held (side : UInt32) : Nat := min last (roundCount side.toNat)

/-- The pixel edge where the whole output ends. -/
def reach (side : UInt32) : Nat := min last (withoutHalf (roundCount side.toNat))

theorem roundCount_le (side : UInt32) : roundCount side.toNat ≤ 2 ^ 32 := by
  have hside : |((side.toNat : Nat) : ℚ)| ≤ 2 ^ 32 := by
    rw [Nat.abs_cast]
    exact_mod_cast side.toNat_lt.le
  have hle := (rounded_count side.toNat).within hside
  rw [Nat.abs_cast] at hle
  exact_mod_cast hle

theorem reads_side (side : UInt32) :
    Reads (Scalar.ofNat side.toNat) (roundCount side.toNat) :=
  reads_count (Nat.lt_trans side.toNat_lt (by decide))

theorem whole_side (side : UInt32) :
    Scalar.whole (Scalar.ofNat side.toNat : Float32) = roundCount side.toNat := by
  have hle : (roundCount side.toNat : ℚ) ≤ 2 ^ 32 := by exact_mod_cast roundCount_le side
  rw [(reads_side side).whole (lt_of_le_of_lt hle (by norm_num)), Nat.floor_natCast]

theorem edge_le_held (position : Float32) (side : UInt32) : edge position side ≤ held side := by
  unfold edge held
  dsimp only
  rw [whole_side]
  apply min_le_min_left
  split
  · exact le_rfl
  · rename_i hnot
    rcases reads_or position with ⟨q, hq⟩ | hnone | habove
    · have hle : q ≤ roundCount side.toNat := not_lt.mp (mt ((reads_side side).lt_iff hq).mpr hnot)
      have hlimit : (roundCount side.toNat : ℚ) ≤ 2 ^ 32 := by exact_mod_cast roundCount_le side
      rw [hq.ceil (lt_of_le_of_lt (le_trans hle hlimit) (by norm_num))]
      exact Nat.ceil_le.mpr hle
    · rw [hnone]
      exact Nat.zero_le _
    · exact absurd (habove (reads_side side)) hnot

theorem edge_of_reads {position : Float32} {q : ℚ} (h : Reads position q) (hq : q < 2 ^ 64)
    (side : UInt32) : edge position side = min (held side) ⌈q⌉₊ := by
  unfold edge held
  dsimp only
  rw [whole_side, h.ceil hq, min_assoc]
  congr 1
  split
  · rename_i hlt
    have hle : (roundCount side.toNat : ℚ) ≤ ⌈q⌉₊ :=
      le_trans (((reads_side side).lt_iff h).mp hlt).le (Nat.le_ceil q)
    exact (min_eq_left (by exact_mod_cast hle)).symm
  · rename_i hnot
    have hle : q ≤ roundCount side.toNat := not_lt.mp (mt ((reads_side side).lt_iff h).mpr hnot)
    exact (min_eq_right (Nat.ceil_le.mpr hle)).symm

end Span

/-! ## The whole output -/

theorem Single.reads_half : Reads Scalar.half (1 / 2) := by
  have hpow := denotes_two_pow (n := -1) (by decide)
  rw [zpow_neg_one, ← one_div] at hpow
  exact hpow

namespace Span

variable {x : Float32} {q : ℚ} (side : UInt32)

/-- A position that is a product with the number of pixels, half a pixel before it. -/
theorem reads_position (h : Reads x q) (hq : |q * roundCount side.toNat| ≤ 2 ^ 32)
    (hexact : Rounded (q * roundCount side.toNat) (q * roundCount side.toNat)) :
    ∃ p, Rounded (q * roundCount side.toNat - 1 / 2) p ∧ p < 2 ^ 64 ∧
      Reads (x * Scalar.ofNat side.toNat - Scalar.half) p := by
  have hproduct := h.mul_exact (reads_side side) (le_trans hq (by norm_num)) hexact
  have hle : |q * roundCount side.toNat - 1 / 2| ≤ 2 ^ 33 := by
    obtain ⟨hlow, hhigh⟩ := abs_le.mp hq
    rw [abs_le]
    constructor <;> norm_num at hlow hhigh ⊢ <;> linarith
  obtain ⟨p, hp, hposition⟩ := hproduct.sub reads_half (le_trans hle (by norm_num))
  exact ⟨p, hp, lt_of_le_of_lt (le_trans (le_abs_self p) (hp.within hle)) (by norm_num), hposition⟩

theorem near_edge :
    edge ((Scalar.ofNat 0 : Float32) * Scalar.ofNat side.toNat - Scalar.half) side = 0 := by
  obtain ⟨p, hp, hlt, hposition⟩ := reads_position side reads_zero (by rw [zero_mul]; norm_num)
    (by rw [zero_mul]; exact rounded_zero)
  have hle : p ≤ 0 := hp.mono rounded_zero (by rw [zero_mul]; norm_num)
  rw [edge_of_reads hposition hlt, Nat.ceil_eq_zero.mpr hle, Nat.min_zero]

theorem far_edge :
    edge ((Scalar.ofNat 1 : Float32) * Scalar.ofNat side.toNat - Scalar.half) side =
      reach side := by
  have hside : Rounded (roundCount side.toNat : ℚ) (roundCount side.toNat) :=
    (reads_side side).rounded
  have hlimit : |(roundCount side.toNat : ℚ)| ≤ 2 ^ 32 := by
    rw [Nat.abs_cast]
    exact_mod_cast roundCount_le side
  obtain ⟨p, hp, hlt, hposition⟩ := reads_position side reads_one (by rwa [one_mul])
    (by rwa [one_mul])
  rw [one_mul] at hp
  rw [edge_of_reads hposition hlt, ceil_half_less hside hp]
  unfold held reach withoutHalf
  split <;> omega

theorem column_of {a : Float32} (h : (x + Scalar.ofNat 1) / Scalar.ofNat 2 = a) :
    column x side = edge (a * Scalar.ofNat side.toNat - Scalar.half) side := by
  rw [← h]
  rfl

theorem row_of {a : Float32} (h : (Scalar.ofNat 1 - x) / Scalar.ofNat 2 = a) :
    row x side = edge (a * Scalar.ofNat side.toNat - Scalar.half) side := by
  rw [← h]
  rfl

theorem of_full (output : Size) :
    of (.full : Rect Float32) output = ⟨0, reach output.width, 0, reach output.height⟩ := by
  unfold of
  rw [column_of (a := Scalar.ofNat 0) _ (by decide), column_of (a := Scalar.ofNat 1) _ (by decide),
    row_of (a := Scalar.ofNat 0) _ (by decide), row_of (a := Scalar.ofNat 1) _ (by decide),
    near_edge, far_edge, near_edge, far_edge]

/-! ## Which sides are exact -/

variable {side} {output : Size}

theorem held_of_le (h : side.toNat ≤ 2 ^ 24) : held side = side.toNat := by
  have hcount : roundCount side.toNat = side.toNat := by
    rcases Nat.eq_or_lt_of_le h with heq | hlt
    · rw [heq]
      rfl
    · exact roundCount_of_lt hlt
  unfold held last
  omega

theorem reach_of_le (h : side.toNat ≤ 2 ^ 23) : reach side = side.toNat := by
  have hcount : roundCount side.toNat = side.toNat := roundCount_of_lt (by omega)
  unfold reach withoutHalf last
  rw [hcount, if_neg (by omega)]
  omega

/-- If the whole output ends on an axis, every edge lies on it: an axis that is rounded up is longer
than 2 ^ 24, and then half a pixel less is no less. -/
theorem held_le_of_reach_le (h : reach side ≤ side.toNat) : held side ≤ side.toNat := by
  by_cases hshort : side.toNat < 2 ^ 24
  · exact (held_of_le hshort.le).le
  · have hlarge : 2 ^ 24 ≤ roundCount side.toNat := by
      have hpow : Rounded ((2 ^ 24 : Nat) : ℚ) (2 ^ 24 : Nat) := by
        rw [Nat.cast_pow, Nat.cast_ofNat, ← zpow_natCast]
        exact rounded_two_pow (by decide)
      have hle := hpow.mono (rounded_count side.toNat) (by exact_mod_cast not_lt.mp hshort)
      exact_mod_cast hle
    unfold reach withoutHalf at h
    rw [if_neg (by omega)] at h
    exact h

/-! ## Spans and the output -/

/-- The edges of spans do not go beyond the axes of an output if and only if single precision does
not make these longer, which it may for more than 2 ^ 24 columns or rows. Then every step of drawing
keeps to the output: it blends its color into each pixel that it covers and leaves the others as
they were, and it crashes only where it has no color. The whole output as a rectangle covers all of
it if both axes have no more than 2 ^ 23 pixels. On a longer axis it ends where half a pixel less
than the axis is rounded to. -/
theorem spans_keep_to_the_output (output : Size) :
    let keeps := held output.width ≤ output.width.toNat ∧ held output.height ≤ output.height.toNat
    (output.width.toNat ≤ 2 ^ 24 → output.height.toNat ≤ 2 ^ 24 → keeps) ∧
      ((∀ r : Rect Float32, (of r output).LiesIn output) ↔ keeps) ∧
      (keeps → ∀ (c : Canvas Float32) textures (op : DrawOp Float32),
        c.IsWhole → c.size = output → op.Inside output ∧
          (∀ c', c.draw textures op = .ok c' → c'.Alike c ∧
            ∀ x y, x < output.width.toNat → y < output.height.toNat →
              ∃ dst color, c.pixel? x y = some dst ∧
                op.over textures output x y dst = .ok color ∧ c'.pixel? x y = some color) ∧
          ∀ crash, c.draw textures op = .error crash →
            ∃ x y, op.Covers output x y ∧ op.colorAt textures output x y = .error crash) ∧
      of (.full : Rect Float32) output = ⟨0, reach output.width, 0, reach output.height⟩ ∧
      (output.width.toNat ≤ 2 ^ 23 → output.height.toNat ≤ 2 ^ 23 →
        of (.full : Rect Float32) output = ⟨0, output.width.toNat, 0, output.height.toNat⟩) := by
  intro keeps
  have hlies : keeps → ∀ r : Rect Float32, (of r output).LiesIn output := by
    rintro ⟨hw, hh⟩
    exact liesIn_of_edge_le (fun _ => (edge_le_held _ _).trans hw)
      (fun _ => (edge_le_held _ _).trans hh)
  refine ⟨?_, ⟨?_, hlies⟩, ?_, of_full output, ?_⟩
  · intro hw hh
    exact ⟨(held_of_le hw).le, (held_of_le hh).le⟩
  · intro hall
    have hfull := hall .full
    rw [of_full] at hfull
    exact ⟨held_le_of_reach_le hfull.right, held_le_of_reach_le hfull.bottom⟩
  · rintro hkeeps c textures op hc rfl
    have hinside : op.Inside c.size := by
      apply DrawOp.inside_of_spans
      rintro r x y ⟨_, hx, _, hy⟩
      exact ⟨Nat.lt_of_lt_of_le hx (hlies hkeeps r).right,
        Nat.lt_of_lt_of_le hy (hlies hkeeps r).bottom⟩
    refine ⟨hinside, ?_, fun crash => Canvas.crash_of_draw hc hinside⟩
    intro c' hdraw
    have hblended := Canvas.blended_of_draw hc hinside hdraw
    exact ⟨hblended.alike, fun x y hx hy => Canvas.pixel_of_blended hc hx hy hblended⟩
  · intro hw hh
    rw [of_full, reach_of_le hw, reach_of_le hh]

/-- One column more than 2 ^ 23: no span leaves the output, and the whole output as a rectangle does
not cover the last column. -/
theorem the_last_of_many_columns_is_left_out :
    let output : Size := ⟨8388609, 1⟩
    (∀ r : Rect Float32, (of r output).LiesIn output) ∧
      of (.full : Rect Float32) output = ⟨0, 8388608, 0, 1⟩ := by
  intro output
  obtain ⟨hkeeps, hlies, _, hfull, _⟩ := spans_keep_to_the_output output
  refine ⟨hlies.mpr (hkeeps (by decide) (by decide)), ?_⟩
  rw [hfull]
  decide +kernel

end Span

namespace Canvas

variable {α : Type} [Scalar α] {c : Canvas α} {x y : Nat}

/-- A pixel past the end of the canvas cannot be blended. -/
theorem blend_of_outside (h : c.pixels.size ≤ c.offset x y) (src : Color α) :
    c.blend x y src = .error (.pixelOutOfRange (c.offset x y) c.pixels.size) :=
  dif_neg (Nat.not_lt.mpr h)

/-- To fill the last column of an output of one row, and one more column, crashes. -/
theorem fill_past_the_end (hc : c.IsWhole) (hw : 0 < c.size.width.toNat)
    (hh : c.size.height.toNat = 1) {rect : Rect α}
    (hspan : Span.of rect c.size = ⟨c.size.width.toNat - 1, c.size.width.toNat + 1, 0, 1⟩)
    (color : Color α) :
    c.fill rect color = .error (.pixelOutOfRange c.size.width.toNat c.size.width.toNat) := by
  obtain ⟨_, next, _, hfirst, _, _⟩ :=
    blend_of_inside hc (Nat.sub_lt hw Nat.one_pos) (by rw [hh]; exact Nat.one_pos) color
  have hnext := alike_blend hfirst
  have hcount : next.pixels.size = c.size.width.toNat := by
    rw [hnext.2, hc, Size.area, hh, Nat.mul_one]
  have hplace : next.offset c.size.width.toNat 0 = c.size.width.toNat := by
    rw [offset, Nat.zero_mul, Nat.zero_add]
  have hsecond := blend_of_outside (c := next) (x := c.size.width.toNat) (y := 0)
    (by rw [hcount, hplace]) color
  rw [hcount, hplace] at hsecond
  have hcells : (Span.of rect c.size).cells =
      [(c.size.width.toNat - 1, 0), (c.size.width.toNat, 0)] := by
    have hcolumns : c.size.width.toNat + 1 - (c.size.width.toNat - 1) = 2 := by omega
    have hnext : c.size.width.toNat - 1 + 1 = c.size.width.toNat := by omega
    rw [hspan]
    unfold Span.cells Span.columns Span.rows
    simp only [hcolumns, List.range'_succ, List.range'_zero, hnext, List.flatMap_cons,
      List.flatMap_nil, List.map_cons, List.map_nil, List.append_nil]
  have hdab : ∀ (c : Canvas α) cell,
      dab (fun _ _ => .ok color) c cell = c.blend cell.1 cell.2 color := fun _ _ => rfl
  have hlast : [(c.size.width.toNat, 0)].foldlM (dab fun _ _ => .ok color) next =
      .error (.pixelOutOfRange c.size.width.toNat c.size.width.toNat) := by
    rw [List.foldlM_cons, hdab, hsecond]
    rfl
  unfold fill
  rw [paint_eq, hcells, List.foldlM_cons, hdab, hfirst]
  exact hlast

end Canvas

namespace Raster.State

/-- An output of 2 ^ 24 + 3 columns has one more in single precision. A rectangle at its right end
has a span that goes beyond it, and to fill it crashes. -/
theorem a_span_leaves_a_long_row :
    let c : Config Float32 := .withSizes ⟨1, 1⟩ ⟨1, 1⟩ ⟨16777219, 1⟩
    let rect : Rect Float32 := ⟨1 - 1 / 8388608, -1, 1, 2⟩
    c.validate = .ok () ∧ Reached c (blank c) ∧
      Span.of rect c.output = ⟨16777218, 16777220, 0, 1⟩ ∧
      ¬ (Span.of rect c.output).LiesIn c.output ∧
      ((blank c).render [.fill rect ⟨1, 1, 1, 1⟩] ⟨0, 0⟩).outcome =
        .crashed (.pixelOutOfRange 16777219 16777219) := by
  intro c rect
  have hspan : Span.of rect c.output = ⟨16777218, 16777220, 0, 1⟩ := by decide +kernel
  have hnew : Reached c (blank c) := .create (create_eq_ok.mpr ⟨by decide +kernel, rfl⟩)
  refine ⟨by decide +kernel, hnew, hspan, ?_, ?_⟩
  · intro hlies
    have hright := hlies.right
    rw [hspan] at hright
    exact absurd hright (by decide)
  · have hwhole := isWhole_clear (shaped_of_reached hnew)
    have hfill := Canvas.fill_past_the_end hwhole (by decide) rfl hspan ⟨1, 1, 1, 1⟩
    have hdraw : (blank c).canvas.clear.draw (blank c).textures (.fill rect ⟨1, 1, 1, 1⟩) =
        .error (.pixelOutOfRange 16777219 16777219) := hfill
    rw [render_of_crash (Canvas.drawAll_cons_error hdraw [])]

end Raster.State

end PictureInPicture
