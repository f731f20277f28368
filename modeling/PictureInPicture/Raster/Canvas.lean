-- The picture that is drawn. It starts opaque and black, and every step of drawing is
-- blended over what is there.
import PictureInPicture.Raster.Span
import PictureInPicture.Raster.Texture

namespace PictureInPicture

/-- The pixels of the output, the rows put end to end from the top. -/
structure Canvas (α : Type) where
  size : Size
  pixels : Array (Color α)

namespace Color

variable {α : Type} [Scalar α]

def black : Color α := ⟨0, 0, 0, 1⟩

/-- A color over another one. The colors are weighted with the opacity of the upper one,
and the part of the lower one that shows through stays. -/
@[inline] def atop (src dst : Color α) : Color α where
  red := src.red * src.alpha + dst.red * (1 - src.alpha)
  green := src.green * src.alpha + dst.green * (1 - src.alpha)
  blue := src.blue * src.alpha + dst.blue * (1 - src.alpha)
  alpha := src.alpha + dst.alpha * (1 - src.alpha)

/-- The byte for a level, with levels outside of 0 to 1 taken to the nearer end. -/
@[inline] def byteOfLevel (level : α) : UInt8 :=
  (Scalar.round (Scalar.clamp level 0 1 * 255)).toUInt8

end Color

namespace Canvas

variable {α : Type} [Scalar α]

def blank (size : Size) : Canvas α := ⟨size, Array.replicate size.area .black⟩

/-- The same canvas with every pixel black again. -/
def clear (c : Canvas α) : Canvas α := { c with pixels := c.pixels.map fun _ => .black }

/-- The place of a pixel in the rows put end to end. -/
@[inline] def offset (c : Canvas α) (x y : Nat) : Nat := y * c.size.width.toNat + x

/-- The color of a pixel. -/
def pixel? (c : Canvas α) (x y : Nat) : Option (Color α) := c.pixels[c.offset x y]?

/-- Blends a color into one pixel. -/
@[inline] def blend (c : Canvas α) (x y : Nat) (src : Color α) : Except Crash (Canvas α) :=
  let index := y * c.size.width.toNat + x
  if h : index < c.pixels.size then
    let dst := c.pixels[index]
    .ok { c with pixels := c.pixels.set index (src.atop dst) h }
  else .error (.pixelOutOfRange index c.pixels.size)

/-! ## The steps of drawing -/

/-- Blends a color of its own into every pixel of a span, row by row. -/
@[specialize] def paint (c : Canvas α) (span : Span)
    (shade : Nat → Nat → Except Crash (Color α)) : Except Crash (Canvas α) :=
  if span.isEmpty then .ok c
  else
    let columns := span.columns
    span.rows.foldlM (fun c y =>
      columns.foldlM (fun c x =>
        match shade x y with
        | .error crash => .error crash
        | .ok color => c.blend x y color) c) c

@[specialize] def fill (c : Canvas α) (rect : Rect α) (color : Color α) :
    Except Crash (Canvas α) :=
  c.paint (.of rect c.size) fun _ _ => .ok color

/-- Blends a color into the first and the last row of a span, pixel pair by pixel pair, and
then into what is left of the first and the last column. Of two rows or columns that are
the same one is left out, so that no pixel is blended twice. -/
@[specialize] def outline (c : Canvas α) (rect : Rect α) (color : Color α) :
    Except Crash (Canvas α) := do
  let span := Span.of rect c.size
  if span.isEmpty then return c
  let right := span.right - 1
  let bottom := span.bottom - 1
  let c ← span.columns.foldlM (fun c x => do
    let c ← c.blend x span.top color
    if bottom ≠ span.top then c.blend x bottom color else return c) c
  (List.range' (span.top + 1) (bottom - (span.top + 1))).foldlM (fun c y => do
    let c ← c.blend span.left y color
    if right ≠ span.left then c.blend right y color else return c) c

@[specialize] def drawLayer (c : Canvas α) (textures : Both Texture) (layer : Layer α) :
    Except Crash (Canvas α) :=
  let texture := textures.get layer.role
  let size := c.size
  c.paint (.of layer.quad.rect size) fun x y =>
    texture.sample (layer.quad.uvAtPixel size x y) layer.opacity

@[specialize] def draw (c : Canvas α) (textures : Both Texture) :
    DrawOp α → Except Crash (Canvas α)
  | .fill rect color => c.fill rect color
  | .outline rect color => c.outline rect color
  | .layer layer => c.drawLayer textures layer

@[specialize] def drawAll (c : Canvas α) (textures : Both Texture) (ops : List (DrawOp α)) :
    Except Crash (Canvas α) :=
  ops.foldlM (fun c op => c.draw textures op) c

/-! ## The bytes of a picture -/

@[inline] def pushPixel (out : ByteArray) (color : Color α) : ByteArray :=
  (((out.push (Color.byteOfLevel color.red)).push (Color.byteOfLevel color.green)).push
    (Color.byteOfLevel color.blue)).push (Color.byteOfLevel color.alpha)

/-- Four bytes for each pixel. -/
@[specialize] def bytes (c : Canvas α) : ByteArray :=
  c.pixels.foldl pushPixel (ByteArray.emptyWithCapacity (4 * c.pixels.size))

end Canvas

end PictureInPicture
