-- The place of the overlay inside the output.
import PictureInPicture.Geometry.Rect

namespace PictureInPicture

/-- Where the overlay is pinned. -/
inductive Anchor where
  | topLeft
  | topRight
  | bottomLeft
  | bottomRight
  | center
  | topCenter
  | bottomCenter
  deriving DecidableEq, Repr, Inhabited

namespace Anchor

def all : List Anchor :=
  [topLeft, topRight, bottomLeft, bottomRight, center, topCenter, bottomCenter]

def name : Anchor → String
  | topLeft => "top-left"
  | topRight => "top-right"
  | bottomLeft => "bottom-left"
  | bottomRight => "bottom-right"
  | center => "center"
  | topCenter => "top-center"
  | bottomCenter => "bottom-center"

variable {α : Type} [Scalar α]

/-- The overlay rectangle for its anchor. The ratios and the margin are fractions of the
output, which is two units wide and two units high. -/
def place (anchor : Anchor) (widthRatio heightRatio marginRatio : α) : Rect α :=
  let width := widthRatio * 2
  let height := heightRatio * 2
  let margin := marginRatio * 2
  let leftEdge := -1 + margin
  let rightEdge := 1 - margin - width
  let centeredX := -width / 2
  let topEdge := 1 - margin - height
  let bottomEdge := -1 + margin
  let centeredY := -height / 2
  match anchor with
  | topLeft => ⟨leftEdge, topEdge, width, height⟩
  | topRight => ⟨rightEdge, topEdge, width, height⟩
  | bottomLeft => ⟨leftEdge, bottomEdge, width, height⟩
  | bottomRight => ⟨rightEdge, bottomEdge, width, height⟩
  | center => ⟨centeredX, centeredY, width, height⟩
  | topCenter => ⟨centeredX, topEdge, width, height⟩
  | bottomCenter => ⟨centeredX, bottomEdge, width, height⟩

end Anchor

end PictureInPicture
