-- Frames as producers hand them over, and the check against what a source declares.
import PictureInPicture.Buffer

namespace PictureInPicture

/-- The three planes of a planar picture. -/
structure Planes where
  y : Buffer
  u : Buffer
  v : Buffer

namespace Planes

/-- A picture of one color. -/
def filled (luma : Size) (subsampling : Subsampling) (y u v : UInt8) : Planes :=
  let chroma := subsampling.chromaSize luma
  { y := .filled luma.width luma.height ⟨#[y]⟩
    u := .filled chroma.width chroma.height ⟨#[u]⟩
    v := .filled chroma.width chroma.height ⟨#[v]⟩ }

/-- The same picture, if its bytes can be addressed. -/
def fill (luma : Size) (subsampling : Subsampling) (y u v : UInt8) : Except Crash Planes := do
  reserve [luma.area, (subsampling.chromaSize luma).area]
  return filled luma subsampling y u v

def named (p : Planes) : List (Plane × Buffer) :=
  [(.luma, p.y), (.chromaU, p.u), (.chromaV, p.v)]

/-- A plane has its declared size, and its samples lie inside its data. -/
def checkPlane (plane : Plane) (declared : Size) (channels : UInt64) (b : Buffer) :
    Except BufferFault Unit :=
  if b.size ≠ declared then .error (.dimensionMismatch plane declared b.size)
  else b.validate channels

/-- The planes are checked in the order luma, U, V. -/
def validate (p : Planes) (luma : Size) (subsampling : Subsampling) :
    Except BufferFault Unit := do
  let chroma := subsampling.chromaSize luma
  checkPlane .luma luma 1 p.y
  checkPlane .chromaU chroma 1 p.u
  checkPlane .chromaV chroma 1 p.v

end Planes

/-- One picture of a producer. -/
inductive Frame where
  | packed (buffer : Buffer)
  | planar (planes : Planes)

namespace Frame

def packing : Frame → Packing
  | packed _ => .packed
  | planar _ => .planar

/-- A frame has the layout and the sizes that its source declares, and its samples lie
inside its data. -/
def validateFor (frame : Frame) (role : Role) (source : Source) : Except BufferFault Unit :=
  match frame, source.format with
  | packed buffer, .packed _ =>
    Planes.checkPlane .packed source.size packedChannels.toUInt64 buffer
  | planar planes, .planar subsampling => planes.validate source.size subsampling
  | _, format => .error (.packingMismatch role format.packing frame.packing)

end Frame

end PictureInPicture
