-- What is drawn for a composite. The plan is made once for a session. From frame to frame
-- only the contents of the textures change, and which of them hold a picture.
import PictureInPicture.Config
import PictureInPicture.Geometry.Quad

namespace PictureInPicture

/-- A color with its opacity. -/
structure Color (α : Type) where
  red : α
  green : α
  blue : α
  alpha : α
  deriving Repr, DecidableEq

/-- One source as it is drawn. -/
structure Layer (α : Type) where
  role : Role
  format : PixelFormat
  quad : Quad α
  opacity : α
  deriving Repr, DecidableEq

/-- The backing and the border that are drawn under the overlay. -/
structure OverlayFrame (α : Type) where
  rect : Rect α
  backing : Color α
  border : Color α
  deriving Repr, DecidableEq

/-- One step of drawing. -/
inductive DrawOp (α : Type) where
  /-- A rectangle of one color. -/
  | fill (rect : Rect α) (color : Color α)
  /-- The outermost pixels of a rectangle. -/
  | outline (rect : Rect α) (color : Color α)
  /-- The picture of a source. -/
  | layer (layer : Layer α)
  deriving Repr, DecidableEq

/-! ## Which sources hold a picture -/

/-- The sources that have a picture in their texture. -/
structure Residency where
  resident : Both Bool
  deriving DecidableEq, Repr

namespace Residency

def empty : Residency := ⟨.twice false⟩

def mark (r : Residency) (role : Role) : Residency := ⟨r.resident.set role true⟩

def contains (r : Residency) (role : Role) : Bool := r.resident.get role

def any (r : Residency) : Bool := r.resident.primary || r.resident.secondary

end Residency

/-! ## The plan -/

/-- How the two sources are combined. -/
structure Plan (α : Type) where
  output : Size
  background : Layer α
  overlay : Layer α
  frame : Option (OverlayFrame α)
  deriving Repr, DecidableEq

namespace Plan

variable {α : Type} [Scalar α]

/-- The color behind the overlay inside its frame. -/
def backingColor : Color α := ⟨0, 0, 0, Scalar.ofDecimal 35 2⟩

/-- The color of the line around the overlay. -/
def borderColor : Color α := ⟨1, 1, 0, Scalar.ofDecimal 9 1⟩

/-- The frame stands so many pixels outside the overlay. -/
def framePad : Nat := 2

/-- The width of `framePad` pixels on an axis of `side` pixels. -/
def padding (side : UInt32) : α :=
  Scalar.ofNat framePad * 2 / Scalar.ofNat (max side.toNat 1)

/-- The plan for settings. The background is cropped to fill the output, and the overlay
shows all of its source. -/
def ofConfig (c : Config α) : Plan α :=
  let layout := c.layout
  let lower := c.sources.get layout.background
  let upper := c.sources.get layout.overlay
  let rect := layout.anchor.place layout.widthRatio layout.heightRatio layout.marginRatio
  { output := c.output
    background :=
      { role := layout.background
        format := lower.format
        quad := .fill lower.size c.output layout.rotation
        opacity := 1 }
    overlay :=
      { role := layout.overlay
        format := upper.format
        quad := .of rect .full .deg0
        opacity := layout.overlayOpacity }
    frame :=
      if layout.overlayFrame then
        some
          { rect := rect.inflate (padding c.output.width) (padding c.output.height)
            backing := backingColor
            border := borderColor }
      else none }

/-- The steps that draw the sources that hold a picture: the background, then the frame of
the overlay, then the overlay. A source without a picture is left out. -/
def drawOps (p : Plan α) (r : Residency) : List (DrawOp α) :=
  let background := if r.contains p.background.role then [.layer p.background] else []
  let overlay :=
    if r.contains p.overlay.role then
      let frame :=
        match p.frame with
        | some f => [.fill f.rect f.backing, .outline f.rect f.border]
        | none => []
      frame ++ [.layer p.overlay]
    else []
  background ++ overlay

end Plan

end PictureInPicture
