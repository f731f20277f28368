-- Where the overlay lies, over exact rationals. On each axis an anchor keeps the overlay to one side
-- of the output, or to its middle. Both axes follow one rule, so every law is proved on one axis.
import Mathlib.Tactic.Linarith
import Mathlib.Tactic.Ring
import PictureInPicture.Plan
import PictureInPicture.Proofs.Config.Accepted

namespace PictureInPicture

/-! ## One axis -/

/-- The part of an axis that an anchor keeps to. -/
inductive Side where
  | low
  | middle
  | high
  deriving DecidableEq, Repr

namespace Side

/-- The side that a mirror shows. -/
def opposite : Side → Side
  | low => high
  | middle => middle
  | high => low

/-- Where something of a length begins that stands so far from its side. -/
def start (side : Side) (length margin : ℚ) : ℚ :=
  match side with
  | low => -1 + margin
  | middle => -length / 2
  | high => 1 - margin - length

/-- The edge on the side is so far from the end of the axis. In the middle both edges are equally
far from 0. -/
def Pins (side : Side) (first last margin : ℚ) : Prop :=
  match side with
  | low => first - -1 = margin
  | middle => first = -last
  | high => 1 - last = margin

variable (side : Side) {length margin : ℚ}

theorem pins_start (length margin : ℚ) :
    side.Pins (side.start length margin) (side.start length margin + length) margin := by
  unfold Pins start
  cases side with
  | low => ring
  | middle => ring
  | high => ring

/-- What is no longer than the axis fits on it in the middle, and elsewhere with its margin. -/
theorem inside_iff (hlength : length ≤ 2) (hmargin : 0 ≤ margin) :
    -1 ≤ side.start length margin ∧ side.start length margin + length ≤ 1 ↔
      side = middle ∨ length + margin ≤ 2 := by
  unfold start
  cases side with
  | low =>
    simp only [reduceCtorEq, false_or]
    constructor
    · rintro ⟨_, hlast⟩
      linarith
    · intro hroom
      constructor <;> linarith
  | middle =>
    simp only [true_or, iff_true]
    constructor <;> linarith
  | high =>
    simp only [reduceCtorEq, false_or]
    constructor
    · rintro ⟨hfirst, _⟩
      linarith
    · intro hroom
      constructor <;> linarith

/-- However long it is, and however far it sticks out, a part of it is on the axis. -/
theorem seen (hlength : 0 < length) (hmargin : 0 ≤ margin) (hmargin' : margin < 2) :
    max (-1) (side.start length margin) < min 1 (side.start length margin + length) := by
  rw [max_lt_iff, lt_min_iff, lt_min_iff]
  unfold start
  cases side with
  | low => exact ⟨⟨by norm_num, by linarith⟩, by linarith, by linarith⟩
  | middle => exact ⟨⟨by norm_num, by linarith⟩, by linarith, by linarith⟩
  | high => exact ⟨⟨by norm_num, by linarith⟩, by linarith, by linarith⟩

theorem start_opposite (length margin : ℚ) :
    side.opposite.start length margin = -(side.start length margin + length) := by
  unfold opposite start
  cases side with
  | low => ring
  | middle => ring
  | high => ring

end Side

/-! ## Both axes -/

namespace Rect

/-- The rectangle in a mirror that exchanges left and right. -/
def mirrored (r : Rect ℚ) : Rect ℚ := ⟨-r.right, r.bottom, r.width, r.height⟩

/-- The rectangle in a mirror that exchanges top and bottom. -/
def flipped (r : Rect ℚ) : Rect ℚ := ⟨r.left, -r.top, r.width, r.height⟩

/-- The part of a rectangle that lies in the output. -/
def visible (r : Rect ℚ) : Rect ℚ where
  left := max (-1) r.left
  bottom := max (-1) r.bottom
  width := min 1 r.right - max (-1) r.left
  height := min 1 r.top - max (-1) r.bottom

end Rect

namespace Anchor

def horizontal : Anchor → Side
  | topLeft | bottomLeft => .low
  | center | topCenter | bottomCenter => .middle
  | topRight | bottomRight => .high

def vertical : Anchor → Side
  | bottomLeft | bottomRight | bottomCenter => .low
  | center => .middle
  | topLeft | topRight | topCenter => .high

/-- The anchor on the other side from left to right. -/
def mirrored : Anchor → Anchor
  | topLeft => topRight
  | topRight => topLeft
  | bottomLeft => bottomRight
  | bottomRight => bottomLeft
  | center => center
  | topCenter => topCenter
  | bottomCenter => bottomCenter

/-- The anchor on the other side from top to bottom. -/
def flipped : Anchor → Anchor
  | topLeft => bottomLeft
  | topRight => bottomRight
  | bottomLeft => topLeft
  | bottomRight => topRight
  | center => center
  | topCenter => bottomCenter
  | bottomCenter => topCenter

variable (anchor : Anchor) (w h m : ℚ)

@[simp] theorem horizontal_mirrored : anchor.mirrored.horizontal = anchor.horizontal.opposite := by
  cases anchor <;> rfl

@[simp] theorem vertical_mirrored : anchor.mirrored.vertical = anchor.vertical := by
  cases anchor <;> rfl

@[simp] theorem horizontal_flipped : anchor.flipped.horizontal = anchor.horizontal := by
  cases anchor <;> rfl

@[simp] theorem vertical_flipped : anchor.flipped.vertical = anchor.vertical.opposite := by
  cases anchor <;> rfl

/-- An anchor places each axis by the rule of its side. -/
theorem place_eq : anchor.place w h m =
    ⟨anchor.horizontal.start (w * 2) (m * 2), anchor.vertical.start (h * 2) (m * 2),
      w * 2, h * 2⟩ := by
  cases anchor <;> rfl

theorem place_mirrored : anchor.mirrored.place w h m = (anchor.place w h m).mirrored := by
  rw [place_eq, place_eq, horizontal_mirrored, vertical_mirrored, Side.start_opposite]
  rfl

theorem place_flipped : anchor.flipped.place w h m = (anchor.place w h m).flipped := by
  rw [place_eq, place_eq, horizontal_flipped, vertical_flipped, Side.start_opposite]
  rfl

variable {w h m}

theorem visible_place (hw : 0 < w) (hh : 0 < h) (hm : 0 ≤ m) (hm' : m < 1) :
    0 < (anchor.place w h m).visible.width ∧ 0 < (anchor.place w h m).visible.height := by
  rw [place_eq]
  constructor
  · exact sub_pos.mpr (anchor.horizontal.seen (by linarith) (by linarith) (by linarith))
  · exact sub_pos.mpr (anchor.vertical.seen (by linarith) (by linarith) (by linarith))

/-- An overlay has twice its ratios as its sides, for the output has sides of 2. On each axis its
edge on the side of the anchor stands off by twice the margin, or it lies around 0. In the middle it
never leaves the output, and elsewhere it does not exactly when ratio and margin together are at
most 1. Mirrored anchors place mirrored rectangles. Of an overlay with settings that are accepted
something is always seen, also when it sticks out. -/
theorem overlays_keep_to_their_anchor (anchor : Anchor) (hw : 0 < w ∧ w ≤ 1) (hh : 0 < h ∧ h ≤ 1)
    (hm : 0 ≤ m ∧ m < 1) :
    let r := anchor.place w h m
    (r.width = 2 * w ∧ r.height = 2 * h) ∧
      (anchor.horizontal.Pins r.left r.right (2 * m) ∧
        anchor.vertical.Pins r.bottom r.top (2 * m)) ∧
      (-1 ≤ r.left ∧ r.right ≤ 1 ↔ anchor.horizontal = .middle ∨ w + m ≤ 1) ∧
      (-1 ≤ r.bottom ∧ r.top ≤ 1 ↔ anchor.vertical = .middle ∨ h + m ≤ 1) ∧
      (anchor.mirrored.place w h m = r.mirrored ∧ anchor.flipped.place w h m = r.flipped) ∧
      ∀ c : Config ℚ, c.layout.validate = .ok () →
        let seen := (Plan.ofConfig c).overlay.quad.rect.visible
        0 < seen.width ∧ 0 < seen.height := by
  intro r
  have hr : r = _ := anchor.place_eq w h m
  have hroom : ∀ ratio : ℚ, ratio * 2 + m * 2 ≤ 2 ↔ ratio + m ≤ 1 := by
    intro ratio
    constructor <;> intro hle <;> linarith
  refine ⟨?_, ?_, ?_, ?_, ⟨anchor.place_mirrored w h m, anchor.place_flipped w h m⟩, ?_⟩
  · rw [hr]
    exact ⟨mul_comm w 2, mul_comm h 2⟩
  · rw [hr, mul_comm 2 m]
    exact ⟨anchor.horizontal.pins_start _ _, anchor.vertical.pins_start _ _⟩
  · rw [hr, ← hroom]
    exact anchor.horizontal.inside_iff (by linarith) (by linarith)
  · rw [hr, ← hroom]
    exact anchor.vertical.inside_iff (by linarith) (by linarith)
  · intro c hc
    obtain ⟨hwidth, hheight, hmargin, _⟩ := Layout.validate_eq_ok.mp hc
    exact c.layout.anchor.visible_place hwidth.1 hheight.1 hmargin.1 hmargin.2

/-- An overlay as wide as the output sticks out on the left by the margin that it keeps on the right.
From top to bottom it has room, and most of it is seen. -/
theorem a_wide_overlay_sticks_out :
    let standard : Config ℚ := .standard
    let layout := { standard.layout with
      anchor := .topRight, widthRatio := 1, heightRatio := 1 / 2, marginRatio := 1 / 4 }
    let c := { standard with layout }
    let r := (Plan.ofConfig c).overlay.quad.rect
    c.layout.validate = .ok () ∧ ¬ (-1 ≤ r.left ∧ r.right ≤ 1) ∧ (-1 ≤ r.bottom ∧ r.top ≤ 1) ∧
      topLeft.place 1 (1 / 2) (1 / 4) = r.mirrored ∧
      0 < r.visible.width ∧ 0 < r.visible.height := by
  intro standard layout c r
  have hc : c.layout.validate = .ok () := by decide +kernel
  obtain ⟨_, _, hhorizontal, hvertical, ⟨hmirrored, _⟩, hseen⟩ :=
    overlays_keep_to_their_anchor topRight (w := 1) (h := 1 / 2) (m := 1 / 4) (by decide +kernel)
      (by decide +kernel) (by decide +kernel)
  refine ⟨hc, ?_, ?_, hmirrored, hseen c hc⟩
  · intro hinside
    exact absurd (hhorizontal.mp hinside) (by decide +kernel)
  · exact hvertical.mpr (.inr (by decide +kernel))

end Anchor

end PictureInPicture
