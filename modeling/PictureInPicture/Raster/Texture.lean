-- The pictures that are sampled. A texture has the size and the format that its source
-- declares, and every upload overwrites all of it. The nearest sample is taken, and a
-- point outside takes the nearest edge.
import PictureInPicture.Frame
import PictureInPicture.Plan

namespace PictureInPicture

/-! ## Samples -/

/-- One byte for each pixel. -/
structure PlaneTexture where
  size : Size
  samples : ByteArray

/-- The picture of one source. -/
inductive Texture where
  | packed (size : Size) (order : ChannelOrder) (texels : ByteArray)
  | planar (y u v : PlaneTexture)

/-- So many bytes of zero. -/
def zeros (n : Nat) : ByteArray := Buffer.replicate ⟨#[0]⟩ n

section

variable {α : Type} [Scalar α]

/-- The pixel of an axis that holds a texture coordinate, the first or the last one when
the coordinate lies outside. An axis without pixels has none. -/
@[inline] def texelIndex (coordinate : α) (side : UInt32) : Except Crash Nat :=
  if side = 0 then .error .emptyTexture
  else .ok (min (Scalar.whole (coordinate * Scalar.ofNat side.toNat)) (side.toNat - 1))

/-- The pixel that holds a texture point, as its place in the rows put end to end. -/
@[inline] def texelOffset (size : Size) (p : TexPoint α) : Except Crash Nat :=
  match texelIndex p.u size.width with
  | .error crash => .error crash
  | .ok x =>
    match texelIndex p.v size.height with
    | .error crash => .error crash
    | .ok y => .ok (y * size.width.toNat + x)

/-- The level that a byte stands for. -/
@[inline] def levelOfByte (b : UInt8) : α := Scalar.ofNat b.toNat / 255

namespace PlaneTexture

def blank (size : Size) : PlaneTexture := ⟨size, zeros size.area⟩

@[inline] def sample (t : PlaneTexture) (p : TexPoint α) : Except Crash α :=
  match texelOffset t.size p with
  | .error crash => .error crash
  | .ok index =>
    if h : index < t.samples.size then .ok (levelOfByte t.samples[index])
    else .error (.sampleOutOfRange index t.samples.size)

end PlaneTexture

/-- The color of luma and of two color differences that are centered on one half, with the
weights of full-range BT.601. -/
@[inline] def rgbOfYuv (y u v : α) : α × α × α :=
  let u := u - Scalar.half
  let v := v - Scalar.half
  (Scalar.clamp (y + Scalar.ofDecimal 1402 3 * v) 0 1,
    Scalar.clamp (y - Scalar.ofDecimal 344136 6 * u - Scalar.ofDecimal 714136 6 * v) 0 1,
    Scalar.clamp (y + Scalar.ofDecimal 1772 3 * u) 0 1)

/-- The color of four bytes in one of the two orders. The fourth byte is left out, and the
opacity of the layer takes its place. -/
@[inline] def colorOfTexel (order : ChannelOrder) (b₀ b₁ b₂ : UInt8) (opacity : α) : Color α :=
  match order with
  | .rgba => ⟨levelOfByte b₀, levelOfByte b₁, levelOfByte b₂, opacity⟩
  | .bgra => ⟨levelOfByte b₂, levelOfByte b₁, levelOfByte b₀, opacity⟩

namespace Texture

/-- A texture of zeros for a source. -/
def blank (source : Source) : Texture :=
  match source.format with
  | .packed order => .packed source.size order (zeros (source.size.area * packedChannels))
  | .planar subsampling =>
    let chroma := subsampling.chromaSize source.size
    .planar (.blank source.size) (.blank chroma) (.blank chroma)

/-- The numbers of bytes in the memories of a texture. -/
def memories (source : Source) : List Nat :=
  match source.format with
  | .packed _ => [source.size.area * packedChannels]
  | .planar subsampling => [source.size.area, (subsampling.chromaSize source.size).area]

/-- The color at a texture point, with the opacity of the layer. -/
@[specialize] def sample (t : Texture) (p : TexPoint α) (opacity : α) : Except Crash (Color α) :=
  match t with
  | packed size order texels =>
    match texelOffset size p with
    | .error crash => .error crash
    | .ok index =>
      let first := index * packedChannels
      if h : first + 3 < texels.size then
        .ok (colorOfTexel order texels[first] texels[first + 1] texels[first + 2] opacity)
      else .error (.sampleOutOfRange (first + 3) texels.size)
  | planar y u v =>
    match y.sample p with
    | .error crash => .error crash
    | .ok y =>
      match u.sample p with
      | .error crash => .error crash
      | .ok u =>
        match v.sample p with
        | .error crash => .error crash
        | .ok v =>
          let (red, green, blue) := rgbOfYuv y u v
          .ok ⟨red, green, blue, opacity⟩

end Texture

end

/-! ## Uploads -/

/-- The memory of a texture after a buffer was copied over it. The two have to have the
same length. -/
def overwrite (memory : ByteArray) (b : Buffer) (channels : Nat) : Except Buffer.Stop ByteArray :=
  match b.tightBytes channels.toUInt64 with
  | .error stop => .error stop
  | .ok tight =>
    if tight.bytes.size = memory.size then .ok tight.bytes
    else .error (.crashed (.lengthMismatch memory.size tight.bytes.size))

namespace Texture

/-- Overwrites a texture with a frame, plane by plane. When a plane cannot be copied, the
planes before it are already in place. -/
def upload (t : Texture) (role : Role) (declared : Packing) (frame : Frame) :
    Texture × Except Buffer.Stop Unit :=
  match t, frame with
  | packed size order texels, .packed buffer =>
    match overwrite texels buffer packedChannels with
    | .ok texels => (packed size order texels, .ok ())
    | .error stop => (t, .error stop)
  | planar y u v, .planar planes =>
    match overwrite y.samples planes.y 1 with
    | .error stop => (t, .error stop)
    | .ok bytes =>
      let y := { y with samples := bytes }
      match overwrite u.samples planes.u 1 with
      | .error stop => (planar y u v, .error stop)
      | .ok bytes =>
        let u := { u with samples := bytes }
        match overwrite v.samples planes.v 1 with
        | .error stop => (planar y u v, .error stop)
        | .ok bytes => (planar y u { v with samples := bytes }, .ok ())
  | _, frame => (t, .error (.refused (.packingMismatch role declared frame.packing)))

end Texture

end PictureInPicture
