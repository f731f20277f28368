-- Textured rectangles: a rectangle of the output and the texture points of its corners.
import PictureInPicture.Geometry.Rect
import PictureInPicture.Geometry.Window

namespace PictureInPicture

/-- A rectangle with a texture point at each corner. -/
structure Quad (α : Type) where
  rect : Rect α
  bottomLeft : TexPoint α
  bottomRight : TexPoint α
  topLeft : TexPoint α
  topRight : TexPoint α
  deriving Repr, DecidableEq

namespace Quad

variable {α : Type} [Scalar α]

/-- The rectangle that shows a window of a turned source. Its upper edge shows the first
rows of the source. -/
def of (rect : Rect α) (window : Window α) (rotation : Rotation) : Quad α where
  rect
  bottomLeft := rotation.apply ⟨window.uMin, window.vMax⟩
  bottomRight := rotation.apply ⟨window.uMax, window.vMax⟩
  topLeft := rotation.apply ⟨window.uMin, window.vMin⟩
  topRight := rotation.apply ⟨window.uMax, window.vMin⟩

/-- The quad that fills the output with a source, cropped around the middle. -/
def fill (source output : Size) (rotation : Rotation) : Quad α :=
  of .full (.fit source output rotation) rotation

/-- The texture points in the order of `Rect.corners`. -/
def uvs (q : Quad α) : List (TexPoint α) :=
  [q.bottomLeft, q.bottomRight, q.topLeft, q.topRight]

/-- The value at the fraction `k` of the way from `a` to `b`. -/
@[inline] def lerp (a b k : α) : α := a + (b - a) * k

/-- The texture point at the fraction `s` of the way from left to right and the fraction
`t` of the way from bottom to top. -/
@[inline] def uvAt (q : Quad α) (s t : α) : TexPoint α :=
  let bottomU := lerp q.bottomLeft.u q.bottomRight.u s
  let bottomV := lerp q.bottomLeft.v q.bottomRight.v s
  let topU := lerp q.topLeft.u q.topRight.u s
  let topV := lerp q.topLeft.v q.topRight.v s
  ⟨lerp bottomU topU t, lerp bottomV topV t⟩

end Quad

end PictureInPicture
