-- Rectangles of the output. Both axes run from -1 to 1, and the second one points up.
import PictureInPicture.Scalar

namespace PictureInPicture

/-- A point of the output. -/
structure Point (α : Type) where
  x : α
  y : α
  deriving Repr, DecidableEq

/-- A rectangle of the output with its sides along the axes. -/
structure Rect (α : Type) where
  left : α
  bottom : α
  width : α
  height : α
  deriving Repr, DecidableEq

namespace Rect

variable {α : Type} [Scalar α]

/-- The rectangle that is the whole output. -/
def full : Rect α := ⟨-1, -1, 2, 2⟩

@[inline] def right (r : Rect α) : α := r.left + r.width

@[inline] def top (r : Rect α) : α := r.bottom + r.height

/-- The rectangle with `dx` added on the left and on the right, and `dy` below and above. -/
def inflate (r : Rect α) (dx dy : α) : Rect α where
  left := r.left - dx
  bottom := r.bottom - dy
  width := r.width + 2 * dx
  height := r.height + 2 * dy

/-- The corners in the order of a triangle strip: the lower two, then the upper two, each
pair from left to right. -/
def corners (r : Rect α) : List (Point α) :=
  [⟨r.left, r.bottom⟩, ⟨r.right, r.bottom⟩, ⟨r.left, r.top⟩, ⟨r.right, r.top⟩]

/-- The closed line around the rectangle, from the lower left corner and back to it. -/
def outline (r : Rect α) : List (Point α) :=
  [⟨r.left, r.bottom⟩, ⟨r.right, r.bottom⟩, ⟨r.right, r.top⟩, ⟨r.left, r.top⟩,
    ⟨r.left, r.bottom⟩]

end Rect

end PictureInPicture
