-- The part of a source that is shown when it fills an output of another shape.
import PictureInPicture.Size
import PictureInPicture.Geometry.Rotation

namespace PictureInPicture

/-- The part of a texture that is sampled, before any turn. -/
structure Window (α : Type) where
  uMin : α
  uMax : α
  vMin : α
  vMax : α
  deriving Repr, DecidableEq

namespace Window

variable {α : Type} [Scalar α]

/-- The window that is the whole texture. -/
def full : Window α := ⟨0, 1, 0, 1⟩

/-- The fractions of the width and of the height that stay visible when a source of one
aspect ratio fills an output of another one. -/
def visibleFraction (source output : α) : α × α :=
  if output ≤ source then (output / source, 1) else (1, source / output)

/-- The window around the middle that fills `output` with `source` and does not stretch
it. The shapes are compared after the turn. -/
def fit (source output : Size) (rotation : Rotation) : Window α :=
  let turned := if rotation.swapsAxes then source.swapped else source
  let (width, height) := visibleFraction (α := α) turned.aspect output.aspect
  { uMin := Scalar.clamp (Scalar.half - width / 2) 0 1
    uMax := Scalar.clamp (Scalar.half + width / 2) 0 1
    vMin := Scalar.clamp (Scalar.half - height / 2) 0 1
    vMax := Scalar.clamp (Scalar.half + height / 2) 0 1 }

end Window

end PictureInPicture
