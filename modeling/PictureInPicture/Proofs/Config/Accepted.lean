-- Which settings are accepted: no size is empty, and the four numbers of the layout are in their
-- ranges.
import PictureInPicture.Config

namespace PictureInPicture

/-- The four numbers of a layout are in their ranges. -/
structure Layout.InRange {α : Type} [Scalar α] (l : Layout α) : Prop where
  widthRatio : 0 < l.widthRatio ∧ l.widthRatio ≤ 1
  heightRatio : 0 < l.heightRatio ∧ l.heightRatio ≤ 1
  marginRatio : 0 ≤ l.marginRatio ∧ l.marginRatio < 1
  overlayOpacity : 0 ≤ l.overlayOpacity ∧ l.overlayOpacity ≤ 1

/-- None of the three sizes is empty. -/
structure Config.HasPixels {α : Type} (c : Config α) : Prop where
  source : ∀ r, (c.sources.get r).size.isEmpty = false
  output : c.output.isEmpty = false

section

variable {α : Type} [Scalar α]

/-- A check with something behind it passes if both do. -/
theorem checked_eq_ok {ε : Type} {fails : Bool} {fault : ε} {rest : Except ε Unit} :
    (if fails then .error fault else rest) = .ok () ↔ fails = false ∧ rest = .ok () := by
  cases fails with
  | false => simp
  | true => simp

theorem Layout.validate_eq_ok {l : Layout α} : l.validate = .ok () ↔ l.InRange := by
  unfold validate isRatio
  simp only [checked_eq_ok, Bool.not_eq_false', Bool.and_eq_true, decide_eq_true_eq, and_true]
  constructor
  · rintro ⟨hwidth, hheight, hmargin, hopacity⟩
    exact ⟨hwidth, hheight, hmargin, hopacity⟩
  · rintro ⟨hwidth, hheight, hmargin, hopacity⟩
    exact ⟨hwidth, hheight, hmargin, hopacity⟩

theorem Config.validate_eq_ok {c : Config α} :
    c.validate = .ok () ↔ c.HasPixels ∧ c.layout.InRange := by
  unfold validate
  rw [checked_eq_ok, checked_eq_ok, checked_eq_ok, Layout.validate_eq_ok]
  constructor
  · rintro ⟨hprimary, hsecondary, houtput, hlayout⟩
    refine ⟨⟨?_, houtput⟩, hlayout⟩
    intro r
    cases r with
    | primary => exact hprimary
    | secondary => exact hsecondary
  · rintro ⟨hpixels, hlayout⟩
    exact ⟨hpixels.source .primary, hpixels.source .secondary, hpixels.output, hlayout⟩

theorem Config.pixels_of_validate {c : Config α} (hc : c.validate = .ok ()) : c.HasPixels :=
  (validate_eq_ok.mp hc).1

end

end PictureInPicture
