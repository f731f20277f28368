-- The pixels that a rectangle covers. A pixel is covered when its middle is: on the left
-- and the upper edge it is, on the right and the lower edge it is not.
import PictureInPicture.Size
import PictureInPicture.Geometry.Quad

namespace PictureInPicture

/-- The columns from `left` up to `right`, and the rows from `top` down to `bottom`. The
last column and the last row are not covered. -/
structure Span where
  left : Nat
  right : Nat
  top : Nat
  bottom : Nat
  deriving DecidableEq, Repr

namespace Span

/-- The largest number of a column or of a row. -/
def last : Nat := 4294967295

variable {α : Type} [Scalar α]

/-- The pixel edge at or after a position in pixels, held inside an axis of `side` pixels. -/
@[specialize] def edge (position : α) (side : UInt32) : Nat :=
  let limit : α := Scalar.ofNat side.toNat
  min last (if limit < position then Scalar.whole limit else Scalar.ceil position)

/-- The first column whose middle is not left of `x`. -/
@[specialize] def column (x : α) (width : UInt32) : Nat :=
  edge ((x + 1) / 2 * Scalar.ofNat width.toNat - Scalar.half) width

/-- The first row whose middle is not above `y`. -/
@[specialize] def row (y : α) (height : UInt32) : Nat :=
  edge ((1 - y) / 2 * Scalar.ofNat height.toNat - Scalar.half) height

@[specialize] def of (r : Rect α) (output : Size) : Span where
  left := column r.left output.width
  right := column r.right output.width
  top := row r.top output.height
  bottom := row r.bottom output.height

def columns (s : Span) : List Nat := List.range' s.left (s.right - s.left)

def rows (s : Span) : List Nat := List.range' s.top (s.bottom - s.top)

def isEmpty (s : Span) : Bool := s.right ≤ s.left || s.bottom ≤ s.top

/-- The pixel lies in the span. -/
def Covers (s : Span) (x y : Nat) : Prop :=
  s.left ≤ x ∧ x < s.right ∧ s.top ≤ y ∧ y < s.bottom

/-- The pixel is an outermost one of the span. -/
def Borders (s : Span) (x y : Nat) : Prop :=
  s.Covers x y ∧ (x = s.left ∨ x + 1 = s.right ∨ y = s.top ∨ y + 1 = s.bottom)

instance (s : Span) (x y : Nat) : Decidable (s.Covers x y) := by
  unfold Covers; infer_instance

instance (s : Span) (x y : Nat) : Decidable (s.Borders x y) := by
  unfold Borders; infer_instance

end Span

/-! ## Where a pixel lies -/

/-- The middle of a pixel in the two axes of the output. -/
@[inline] def pixelCenter {α : Type} [Scalar α] (output : Size) (x y : Nat) : Point α where
  x := (Scalar.ofNat x + Scalar.half) / Scalar.ofNat output.width.toNat * 2 - 1
  y := 1 - (Scalar.ofNat y + Scalar.half) / Scalar.ofNat output.height.toNat * 2

/-- The place of a point inside a rectangle, as fractions from left to right and from
bottom to top. -/
@[inline] def Rect.locate {α : Type} [Scalar α] (r : Rect α) (p : Point α) : α × α :=
  ((p.x - r.left) / r.width, (p.y - r.bottom) / r.height)

/-- The texture point that a quad shows at a pixel. -/
@[inline] def Quad.uvAtPixel {α : Type} [Scalar α] (q : Quad α) (output : Size) (x y : Nat) :
    TexPoint α :=
  let place := q.rect.locate (pixelCenter output x y)
  q.uvAt place.1 place.2

end PictureInPicture
