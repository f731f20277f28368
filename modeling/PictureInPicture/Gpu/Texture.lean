-- The textures of the graphics device. Each source has textures of its declared size, one
-- for a packed picture and three for a planar one, and every upload overwrites them.
import PictureInPicture.Gpu.Format
import PictureInPicture.Frame

namespace PictureInPicture.Gpu

/-- One texture that is sampled. -/
structure PlaneTexture where
  plane : Plane
  size : Size
  format : TextureFormat
  deriving DecidableEq, Repr

/-- A write that covers a texture, with its data and the layout of the data. -/
structure TextureWrite where
  role : Role
  texture : PlaneTexture
  bytes : ByteArray
  bytesPerRow : UInt32
  rows : UInt32

/-- The bytes of a pixel. -/
def TextureFormat.channels : TextureFormat → UInt32
  | .r8Unorm => 1
  | .rgba16Float => 8
  | .other format => format.channels
  | _ => 4

/-- A texture is overwritten by buffers of exactly its size. -/
def checkPlane (plane : Plane) (declared : Size) (b : Buffer) : Except BufferFault Unit :=
  if b.size = declared then .ok () else .error (.dimensionMismatch plane declared b.size)

/-- A source is overwritten by frames of its packing. -/
def checkPacking (role : Role) (declared : Packing) (frame : Frame) : Except BufferFault Unit :=
  if frame.packing = declared then .ok ()
  else .error (.packingMismatch role declared frame.packing)

namespace PlaneTexture

/-- The write of a buffer. The bytes in a row are counted in 32 bits. -/
def write (t : PlaneTexture) (role : Role) (b : Buffer) : Except Buffer.Stop TextureWrite :=
  match checkPlane t.plane t.size b with
  | .error fault => .error (.refused fault)
  | .ok () =>
    match b.tightBytes t.format.channels.toUInt64 with
    | .error stop => .error stop
    | .ok tight =>
      .ok ⟨role, t, tight.bytes, t.size.width * t.format.channels, t.size.height⟩

end PlaneTexture

/-- The textures of one source. -/
inductive SourceTextures where
  | packed (texture : PlaneTexture)
  | planar (y u v : PlaneTexture)
  deriving DecidableEq, Repr

namespace SourceTextures

/-- The textures for a source. A texture with the blue byte first is read as RGB as well. -/
def allocate (source : Source) : SourceTextures :=
  match source.format with
  | .packed .rgba => .packed ⟨.packed, source.size, .rgba8Unorm⟩
  | .packed .bgra => .packed ⟨.packed, source.size, .bgra8Unorm⟩
  | .planar subsampling =>
    let chroma := subsampling.chromaSize source.size
    .planar ⟨.yTexture, source.size, .r8Unorm⟩ ⟨.uTexture, chroma, .r8Unorm⟩
      ⟨.vTexture, chroma, .r8Unorm⟩

def packing : SourceTextures → Packing
  | packed _ => .packed
  | planar .. => .planar

/-- The textures in the order in which they are bound and written. -/
def textures : SourceTextures → List PlaneTexture
  | packed texture => [texture]
  | planar y u v => [y, u, v]

/-- Each buffer is written over its texture, until one is refused. The writes before it
have been made. -/
def writeAll (role : Role) :
    List (PlaneTexture × Buffer) → List TextureWrite × Except Buffer.Stop Unit
  | [] => ([], .ok ())
  | (texture, buffer) :: rest =>
    match texture.write role buffer with
    | .error stop => ([], .error stop)
    | .ok write =>
      let (writes, result) := writeAll role rest
      (write :: writes, result)

/-- The writes of a frame, and how they end. -/
def upload (t : SourceTextures) (role : Role) (frame : Frame) :
    List TextureWrite × Except Buffer.Stop Unit :=
  match checkPacking role t.packing frame with
  | .error fault => ([], .error (.refused fault))
  | .ok () =>
    match t, frame with
    | packed texture, .packed buffer => writeAll role [(texture, buffer)]
    | planar y u v, .planar planes => writeAll role [(y, planes.y), (u, planes.u), (v, planes.v)]
    | _, _ => ([], .error (.refused (.packingMismatch role t.packing frame.packing)))

end SourceTextures

end PictureInPicture.Gpu
