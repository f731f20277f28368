-- Sizes in pixels, and the sizes of the color planes that go with a luma plane.
import PictureInPicture.Scalar

namespace PictureInPicture

/-- Width and height in pixels. -/
structure Size where
  width : UInt32
  height : UInt32
  deriving DecidableEq, Repr, Inhabited

namespace Size

/-- A size with a side of zero. -/
def isEmpty (s : Size) : Bool := s.width = 0 || s.height = 0

theorem isEmpty_eq_false_iff {s : Size} :
    s.isEmpty = false ↔ 0 < s.width.toNat ∧ 0 < s.height.toNat := by
  have zero_iff : ∀ side : UInt32, side = 0 ↔ ¬ 0 < side.toNat := by
    intro side
    rw [← UInt32.toNat_inj, Nat.pos_iff_ne_zero, Classical.not_not]
    rfl
  unfold isEmpty
  rw [Bool.or_eq_false_iff, decide_eq_false_iff_not, decide_eq_false_iff_not, zero_iff, zero_iff,
    Classical.not_not, Classical.not_not]

/-- The number of pixels. -/
def area (s : Size) : Nat := s.width.toNat * s.height.toNat

/-- Width and height with their roles exchanged. -/
def swapped (s : Size) : Size := ⟨s.height, s.width⟩

/-- Width divided by height. A height of zero counts as one. -/
def aspect {α : Type} [Scalar α] (s : Size) : α :=
  Scalar.ofNat s.width.toNat / Scalar.ofNat (max s.height.toNat 1)

/-- Both sides are at most `limit`. -/
def fits (s : Size) (limit : UInt32) : Bool := s.width ≤ limit && s.height ≤ limit

def text (s : Size) : String := toString s.width ++ "x" ++ toString s.height

end Size

/-- The resolution of the two color planes of a planar picture, next to its luma plane. -/
inductive Subsampling where
  /-- Half of the resolution on both axes. -/
  | yuv420
  /-- Half of the columns, all rows. -/
  | yuv422
  /-- The resolution of the luma plane. -/
  | yuv444
  deriving DecidableEq, Repr, Inhabited

namespace Subsampling

def name : Subsampling → String
  | yuv420 => "420"
  | yuv422 => "422"
  | yuv444 => "444"

def all : List Subsampling := [yuv420, yuv422, yuv444]

/-- Half of a side. An odd side is rounded up. -/
def half (side : UInt32) : UInt32 := side / 2 + side % 2

/-- The size of each color plane for a luma plane of the given size. -/
def chromaSize (s : Subsampling) (luma : Size) : Size :=
  match s with
  | yuv420 => ⟨half luma.width, half luma.height⟩
  | yuv422 => ⟨half luma.width, luma.height⟩
  | yuv444 => luma

end Subsampling

end PictureInPicture
