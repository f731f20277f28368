-- The part of a background that is shown, over exact rationals. It has the shape of the output, lies
-- around the middle of the source, and reaches from edge to edge on one axis at least. No larger part
-- around the middle has that shape.
import Mathlib.Tactic.Linarith
import Mathlib.Tactic.Positivity
import Mathlib.Tactic.Ring
import PictureInPicture.Geometry.Window

namespace PictureInPicture

/-! ## Sizes -/

namespace Size

/-- The size of a source after a turn. -/
def turned (s : Size) (rotation : Rotation) : Size := if rotation.swapsAxes then s.swapped else s

variable {s : Size}

theorem isEmpty_turned (hs : s.isEmpty = false) (rotation : Rotation) :
    (s.turned rotation).isEmpty = false := by
  rw [isEmpty_eq_false_iff] at hs ⊢
  unfold turned
  split
  · exact hs.symm
  · exact hs

theorem aspect_rat (hs : s.isEmpty = false) :
    s.aspect = (s.width.toNat : ℚ) / s.height.toNat := by
  have hheight : max s.height.toNat 1 = s.height.toNat :=
    max_eq_left (isEmpty_eq_false_iff.mp hs).2
  unfold aspect
  rw [hheight]
  rfl

theorem aspect_pos (hs : s.isEmpty = false) : (0 : ℚ) < s.aspect := by
  obtain ⟨hwidth, hheight⟩ := isEmpty_eq_false_iff.mp hs
  rw [aspect_rat hs]
  positivity

end Size

/-! ## Fractions that stay visible -/

theorem Scalar.clamp_rat {x : ℚ} (hx : 0 ≤ x) (hx' : x ≤ 1) : clamp x 0 1 = x := by
  unfold clamp
  rw [if_neg (not_lt.mpr hx), if_neg (not_lt.mpr hx')]

namespace Window

/-- Fractions of the two sides of a source. They leave of it the shape of the output, and one of
them is the whole side. -/
structure Keeps (source output : ℚ) (f : ℚ × ℚ) : Prop where
  width : 0 < f.1 ∧ f.1 ≤ 1
  height : 0 < f.2 ∧ f.2 ≤ 1
  whole : f.1 = 1 ∨ f.2 = 1
  shape : f.1 * source = f.2 * output

theorem keeps_visibleFraction {source output : ℚ} (hs : 0 < source) (ho : 0 < output) :
    Keeps source output (visibleFraction source output) := by
  unfold visibleFraction
  split
  · rename_i hle
    change Keeps source output (output / source, 1)
    refine ⟨⟨div_pos ho hs, (div_le_one hs).mpr hle⟩, ⟨one_pos, le_rfl⟩, .inr rfl, ?_⟩
    rw [div_mul_cancel₀ _ hs.ne', one_mul]
  · rename_i hlt
    change Keeps source output (1, source / output)
    refine ⟨⟨one_pos, le_rfl⟩, ⟨div_pos hs ho, ?_⟩, .inl rfl, ?_⟩
    · exact (div_le_one ho).mpr (not_le.mp hlt).le
    · rw [div_mul_cancel₀ _ ho.ne', one_mul]

/-- A source of the shape of the output stays visible as a whole. -/
theorem visibleFraction_self {aspect : ℚ} (h : 0 < aspect) :
    visibleFraction aspect aspect = (1, 1) := by
  unfold visibleFraction
  rw [if_pos le_rfl, div_self h.ne']

/-! ## Windows -/

def width (w : Window ℚ) : ℚ := w.uMax - w.uMin

def height (w : Window ℚ) : ℚ := w.vMax - w.vMin

/-- The window with some fractions of both sides around the middle. -/
def around (f : ℚ × ℚ) : Window ℚ where
  uMin := 1 / 2 - f.1 / 2
  uMax := 1 / 2 + f.1 / 2
  vMin := 1 / 2 - f.2 / 2
  vMax := 1 / 2 + f.2 / 2

/-- The window lies in the texture. -/
def Inside (w : Window ℚ) : Prop := (0 ≤ w.uMin ∧ w.uMax ≤ 1) ∧ (0 ≤ w.vMin ∧ w.vMax ≤ 1)

/-- The middle of the window is the middle of the texture. -/
def Centered (w : Window ℚ) : Prop :=
  (w.uMin + w.uMax) / 2 = 1 / 2 ∧ (w.vMin + w.vMax) / 2 = 1 / 2

/-- The part of a source in the window has the shape of the output. -/
def KeepsShape (w : Window ℚ) (source output : Size) : Prop :=
  w.width * source.width.toNat * output.height.toNat =
    w.height * source.height.toNat * output.width.toNat

/-- The window is a part of another one. -/
def Within (w w' : Window ℚ) : Prop :=
  (w'.uMin ≤ w.uMin ∧ w.uMax ≤ w'.uMax) ∧ (w'.vMin ≤ w.vMin ∧ w.vMax ≤ w'.vMax)

variable {w : Window ℚ} {source output : Size} {f : ℚ × ℚ}

theorem width_around (f : ℚ × ℚ) : (around f).width = f.1 := by
  unfold width around
  ring

theorem height_around (f : ℚ × ℚ) : (around f).height = f.2 := by
  unfold height around
  ring

theorem centered_around (f : ℚ × ℚ) : (around f).Centered := by
  unfold Centered around
  constructor <;> ring

theorem eq_around (h : w.Centered) : w = around (w.width, w.height) := by
  obtain ⟨hu, hv⟩ := h
  unfold around width height
  cases w
  simp only [mk.injEq] at hu hv ⊢
  refine ⟨?_, ?_, ?_, ?_⟩ <;> linarith

theorem inside_around (hwidth : f.1 ≤ 1) (hheight : f.2 ≤ 1) : (around f).Inside := by
  unfold Inside around
  refine ⟨⟨?_, ?_⟩, ?_, ?_⟩ <;> linarith

theorem within_around {f' : ℚ × ℚ} (hwidth : f.1 ≤ f'.1) (hheight : f.2 ≤ f'.2) :
    (around f).Within (around f') := by
  unfold Within around
  refine ⟨⟨?_, ?_⟩, ?_, ?_⟩ <;> linarith

/-- A part has the shape of the output if its fractions make up for the two shapes. -/
theorem keepsShape_iff (hs : source.isEmpty = false) (ho : output.isEmpty = false) :
    w.KeepsShape source output ↔ w.width * source.aspect = w.height * output.aspect := by
  obtain ⟨_, hsource⟩ := Size.isEmpty_eq_false_iff.mp hs
  obtain ⟨_, houtput⟩ := Size.isEmpty_eq_false_iff.mp ho
  have hsource' : (source.height.toNat : ℚ) ≠ 0 := by exact_mod_cast hsource.ne'
  have houtput' : (output.height.toNat : ℚ) ≠ 0 := by exact_mod_cast houtput.ne'
  rw [Size.aspect_rat hs, Size.aspect_rat ho, mul_div_assoc', mul_div_assoc',
    div_eq_div_iff hsource' houtput']
  unfold KeepsShape
  constructor <;> intro h <;> linarith

/-- Of two windows around the middle that have the shape of the output, one that is as wide as the
texture or as high is the larger one. -/
theorem within_of_keeps {a b : ℚ} (ha : 0 < a) (hb : 0 < b) (hf : Keeps a b f) (hw : w.Centered)
    (hinside : w.Inside) (hshape : w.width * a = w.height * b) : w.Within (around f) := by
  have hwidth : w.width ≤ 1 := by
    unfold width
    linarith [hinside.1.1, hinside.1.2]
  have hheight : w.height ≤ 1 := by
    unfold height
    linarith [hinside.2.1, hinside.2.2]
  rw [eq_around hw]
  rcases hf.whole with hone | hone
  · have hle : w.height * b ≤ f.2 * b := by
      rw [← hshape, ← hf.shape, hone]
      exact mul_le_mul_of_nonneg_right hwidth ha.le
    exact within_around (hone ▸ hwidth) (le_of_mul_le_mul_right hle hb)
  · have hle : w.width * a ≤ f.1 * a := by
      rw [hshape, hf.shape, hone]
      exact mul_le_mul_of_nonneg_right hheight hb.le
    exact within_around (le_of_mul_le_mul_right hle ha) (hone ▸ hheight)

/-- The fractions of the sides of a source that are shown. -/
def fractions (source output : Size) (rotation : Rotation) : ℚ × ℚ :=
  visibleFraction (source.turned rotation).aspect output.aspect

theorem keeps_fractions (hs : source.isEmpty = false) (ho : output.isEmpty = false)
    (rotation : Rotation) :
    Keeps (source.turned rotation).aspect output.aspect (fractions source output rotation) :=
  keeps_visibleFraction (Size.aspect_pos (Size.isEmpty_turned hs rotation)) (Size.aspect_pos ho)

/-- To hold the edges of the window in the texture changes none of them. -/
theorem fit_eq (hs : source.isEmpty = false) (ho : output.isEmpty = false) (rotation : Rotation) :
    fit source output rotation = around (fractions source output rotation) := by
  have hkeeps := keeps_fractions hs ho rotation
  have hclamp : ∀ {x : ℚ}, 0 < x ∧ x ≤ 1 →
      Scalar.clamp (1 / 2 - x / 2) 0 1 = 1 / 2 - x / 2 ∧
        Scalar.clamp (1 / 2 + x / 2) 0 1 = 1 / 2 + x / 2 := by
    intro x hx
    constructor <;> apply Scalar.clamp_rat <;> linarith
  obtain ⟨huMin, huMax⟩ := hclamp hkeeps.width
  obtain ⟨hvMin, hvMax⟩ := hclamp hkeeps.height
  unfold around
  rw [← huMin, ← huMax, ← hvMin, ← hvMax]
  rfl

/-- A source that has the shape of the output after its turn is shown as a whole. -/
theorem fit_self (hs : source.isEmpty = false) (rotation : Rotation) :
    (fit source (source.turned rotation) rotation : Window ℚ) = full := by
  have hturned := Size.isEmpty_turned hs rotation
  rw [fit_eq hs hturned, fractions, visibleFraction_self (Size.aspect_pos hturned)]
  decide +kernel

/-- A background is cropped and not stretched. What is shown of it lies in the source, around its
middle, from edge to edge on one axis at least and with an extent on both. After the turn it has the
shape of the output, and every other part around the middle that has it is a part of what is shown.
The edges lie in the source without being held there. -/
theorem backgrounds_are_cropped_without_stretching (hs : source.isEmpty = false)
    (ho : output.isEmpty = false) (rotation : Rotation) :
    let turned := if rotation.swapsAxes then source.swapped else source
    let w : Window ℚ := fit source output rotation
    w.Inside ∧ w.Centered ∧
      ((w.uMin = 0 ∧ w.uMax = 1) ∨ (w.vMin = 0 ∧ w.vMax = 1)) ∧
      (w.uMin < w.uMax ∧ w.vMin < w.vMax) ∧
      w.KeepsShape turned output ∧
      (∀ w' : Window ℚ, w'.Inside → w'.Centered → w'.KeepsShape turned output → w'.Within w) ∧
      w = around (visibleFraction turned.aspect output.aspect) := by
  intro turned w
  have hturned : turned.isEmpty = false := Size.isEmpty_turned hs rotation
  have hkeeps := keeps_fractions hs ho rotation
  have hw : w = around (fractions source output rotation) := fit_eq hs ho rotation
  refine ⟨?_, ?_, ?_, ?_, ?_, ?_, hw⟩
  · rw [hw]
    exact inside_around hkeeps.width.2 hkeeps.height.2
  · rw [hw]
    exact centered_around _
  · rw [hw]
    unfold around
    refine hkeeps.whole.imp ?_ ?_
    · intro hone
      rw [hone]
      norm_num
    · intro hone
      rw [hone]
      norm_num
  · rw [← sub_pos, ← sub_pos (b := w.vMin)]
    change 0 < w.width ∧ 0 < w.height
    rw [hw, width_around, height_around]
    exact ⟨hkeeps.width.1, hkeeps.height.1⟩
  · rw [keepsShape_iff hturned ho, hw, width_around, height_around]
    exact hkeeps.shape
  · intro w' hinside hcentered hshape
    rw [hw]
    exact within_of_keeps (Size.aspect_pos hturned) (Size.aspect_pos ho) hkeeps hcentered hinside
      ((keepsShape_iff hturned ho).mp hshape)

/-- An upright source in a landscape output loses rows above and below. Turned by a right angle it
is shown as a whole. -/
theorem an_upright_source_loses_rows :
    let source : Size := ⟨480, 640⟩
    let output : Size := ⟨640, 480⟩
    source.isEmpty = false ∧ output.isEmpty = false ∧
      fit source output .deg0 = (⟨0, 1, 7 / 32, 25 / 32⟩ : Window ℚ) ∧
      fit source output .deg90 = (full : Window ℚ) := by
  intro source output
  have hs : source.isEmpty = false := by decide
  have ho : output.isEmpty = false := by decide
  obtain ⟨_, _, _, _, _, _, hfit⟩ := backgrounds_are_cropped_without_stretching hs ho .deg0
  refine ⟨hs, ho, ?_, fit_self hs .deg90⟩
  rw [hfit]
  decide +kernel

end Window

end PictureInPicture
