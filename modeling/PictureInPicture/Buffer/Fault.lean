-- Why a picture of a producer is refused.
import PictureInPicture.Source

namespace PictureInPicture

/-- The planes that a size is declared for. The sampled textures of a planar picture go by
one letter each. -/
inductive Plane where
  | packed
  | luma
  | chromaU
  | chromaV
  | yTexture
  | uTexture
  | vTexture
  deriving DecidableEq, Repr

namespace Plane

def name : Plane → String
  | packed => "packed"
  | luma => "luma"
  | chromaU => "chroma-u"
  | chromaV => "chroma-v"
  | yTexture => "y"
  | uTexture => "u"
  | vTexture => "v"

def all : List Plane := [packed, luma, chromaU, chromaV, yTexture, uTexture, vTexture]

end Plane

/-- Why a buffer or a frame is refused. It costs one frame. -/
inductive BufferFault where
  | zeroDimension (size : Size)
  | pixelStrideTooSmall (pixelStride channels : UInt64)
  | rowStrideTooSmall (rowStride : UInt64) (width : UInt32) (pixelStride : UInt64)
  | truncated (required : UInt64) (actual : Nat)
  | dimensionMismatch (plane : Plane) (declared actual : Size)
  | packingMismatch (role : Role) (declared actual : Packing)
  deriving DecidableEq, Repr

namespace BufferFault

def message : BufferFault → String
  | zeroDimension size => "buffer has a zero dimension (" ++ size.text ++ ")"
  | pixelStrideTooSmall pixelStride channels =>
    "pixel stride " ++ toString pixelStride ++ " is smaller than " ++ toString channels ++
      " channel(s)"
  | rowStrideTooSmall rowStride width pixelStride =>
    "row stride " ++ toString rowStride ++ " is smaller than width " ++ toString width ++
      " x pixel stride " ++ toString pixelStride
  | truncated required actual =>
    "buffer holds " ++ toString actual ++ " bytes but " ++ toString required ++ " are needed"
  | dimensionMismatch plane declared actual =>
    plane.name ++ " plane is " ++ actual.text ++ " but " ++ declared.text ++ " was declared"
  | packingMismatch role declared actual =>
    role.name ++ " source expects " ++ declared.name ++ " frames, got " ++ actual.name

end BufferFault

end PictureInPicture
