-- Turns of a source by right angles, clockwise.
import PictureInPicture.Scalar

namespace PictureInPicture

/-- A clockwise turn by a multiple of a right angle. -/
inductive Rotation where
  | deg0
  | deg90
  | deg180
  | deg270
  deriving DecidableEq, Repr, Inhabited

/-- A point of a texture. Both axes run from 0 to 1, and the second one points down from
the first row that a producer delivers. -/
structure TexPoint (α : Type) where
  u : α
  v : α
  deriving Repr, DecidableEq

namespace Rotation

def all : List Rotation := [deg0, deg90, deg180, deg270]

def degrees : Rotation → Nat
  | deg0 => 0
  | deg90 => 90
  | deg180 => 180
  | deg270 => 270

/-- The turn by so many degrees, when it is one of the four. -/
def ofDegrees? (n : Nat) : Option Rotation := all.find? (·.degrees = n)

/-- A quarter turn exchanges the roles of width and height. -/
def swapsAxes : Rotation → Bool
  | deg90 | deg270 => true
  | deg0 | deg180 => false

/-- The point of the source that a turned source shows at a point. -/
@[inline] def apply {α : Type} [Scalar α] (r : Rotation) (p : TexPoint α) : TexPoint α :=
  match r with
  | deg0 => p
  | deg90 => ⟨p.v, 1 - p.u⟩
  | deg180 => ⟨1 - p.u, 1 - p.v⟩
  | deg270 => ⟨1 - p.v, p.u⟩

@[simp] theorem ofDegrees?_degrees (r : Rotation) : ofDegrees? r.degrees = some r := by
  cases r <;> rfl

end Rotation

end PictureInPicture
