-- The settings of a session: the two sources, the output, the layout and the knobs of the
-- graphics device. `validate` says which settings a session accepts.
import PictureInPicture.Source
import PictureInPicture.Geometry.Rotation
import PictureInPicture.Geometry.Placement

namespace PictureInPicture

/-! ## The layout -/

/-- How the two sources are placed inside the output. -/
structure Layout (α : Type) where
  /-- The source that fills the output. The other one is the overlay. -/
  background : Role
  anchor : Anchor
  /-- Overlay width as a fraction of the output width, more than 0 and at most 1. -/
  widthRatio : α
  /-- Overlay height as a fraction of the output height, more than 0 and at most 1. -/
  heightRatio : α
  /-- Gap between the overlay and the edge of the output, at least 0 and less than 1. -/
  marginRatio : α
  /-- The turn of the background source. -/
  rotation : Rotation
  /-- Opacity of the whole overlay, between 0 and 1. -/
  overlayOpacity : α
  /-- A translucent backing and a border are drawn around the overlay. -/
  overlayFrame : Bool
  deriving DecidableEq, Repr

namespace Layout

variable {α : Type} [Scalar α]

/-- The overlay in the lower right corner, over the secondary source. -/
def standard : Layout α where
  background := .secondary
  anchor := .bottomRight
  widthRatio := Scalar.ofDecimal 25 2
  heightRatio := Scalar.ofDecimal 25 2
  marginRatio := Scalar.ofDecimal 2 2
  rotation := .deg0
  overlayOpacity := 1
  overlayFrame := false

/-- The camera fills the output, turned to landscape, under a translucent display. -/
def cameraBackground : Layout α where
  background := .secondary
  anchor := .center
  widthRatio := Scalar.ofDecimal 60 2
  heightRatio := Scalar.ofDecimal 80 2
  marginRatio := Scalar.ofDecimal 5 2
  rotation := .deg270
  overlayOpacity := Scalar.ofDecimal 6 1
  overlayFrame := false

/-- The display fills the output, under an opaque camera picture with a frame. -/
def displayBackground : Layout α where
  background := .primary
  anchor := .bottomRight
  widthRatio := Scalar.ofDecimal 25 2
  heightRatio := Scalar.ofDecimal 25 2
  marginRatio := Scalar.ofDecimal 3 2
  rotation := .deg0
  overlayOpacity := 1
  overlayFrame := true

/-- The source that is drawn on top. -/
def overlay (l : Layout α) : Role := l.background.other

end Layout

/-! ## The device -/

/-- Which graphics adapter is asked for. -/
inductive PowerPreference where
  | low
  | high
  deriving DecidableEq, Repr, Inhabited

namespace PowerPreference

def name : PowerPreference → String
  | low => "low"
  | high => "high"

def all : List PowerPreference := [low, high]

end PowerPreference

/-- How finished frames are asked to reach the screen. -/
inductive PresentPreference where
  /-- The newest frame replaces a waiting one. -/
  | mailbox
  /-- Frames wait in a queue. -/
  | fifo
  deriving DecidableEq, Repr, Inhabited

namespace PresentPreference

def name : PresentPreference → String
  | mailbox => "mailbox"
  | fifo => "fifo"

def all : List PresentPreference := [mailbox, fifo]

end PresentPreference

/-- The knobs of the adapter and of the screen. -/
structure DevicePreferences where
  power : PowerPreference
  /-- Frames that may wait for the screen. It is held between 1 and 3 when it is used. -/
  maxFrameLatency : UInt32
  presentMode : PresentPreference
  deriving DecidableEq, Repr

namespace DevicePreferences

def standard : DevicePreferences := ⟨.low, 2, .mailbox⟩

end DevicePreferences

/-! ## The settings -/

/-- When the first frame may be drawn. -/
inductive StartupPolicy where
  /-- Not before the background source has delivered. -/
  | strict
  /-- As soon as either source has delivered. -/
  | bestEffort
  deriving DecidableEq, Repr, Inhabited

namespace StartupPolicy

def name : StartupPolicy → String
  | strict => "strict"
  | bestEffort => "best-effort"

/-- The name of the policy in log lines. -/
def label : StartupPolicy → String
  | strict => "Strict"
  | bestEffort => "BestEffort"

def all : List StartupPolicy := [strict, bestEffort]

end StartupPolicy

/-- Everything that a session is started with, the output window apart. -/
structure Config (α : Type) where
  sources : Both Source
  output : Size
  layout : Layout α
  startup : StartupPolicy
  device : DevicePreferences
  /-- Counters are logged once in so many frames, and never for 0. -/
  diagnosticsInterval : UInt64
  deriving DecidableEq, Repr

namespace Config

variable {α : Type} [Scalar α]

def standard : Config α where
  sources :=
    { primary := ⟨⟨1280, 720⟩, .packed .rgba⟩
      secondary := ⟨⟨640, 480⟩, .planar .yuv420⟩ }
  output := ⟨1280, 720⟩
  layout := .standard
  startup := .strict
  device := .standard
  diagnosticsInterval := 30

/-- The standard settings with sizes of the two sources and of the output. -/
def withSizes (primary secondary output : Size) : Config α :=
  let c : Config α := standard
  { c with
    sources :=
      { primary := { c.sources.primary with size := primary }
        secondary := { c.sources.secondary with size := secondary } }
    output }

/-- The source that must deliver before a strict session draws. -/
def mandatory (c : Config α) : Role := c.layout.background

end Config

/-! ## The settings that a session accepts -/

/-- A size that must not be empty. -/
inductive SizeField where
  | source (role : Role)
  | output
  deriving DecidableEq, Repr

/-- Why settings are refused. -/
inductive Invalid (α : Type) where
  | emptySize (field : SizeField) (size : Size)
  | widthRatio (value : α)
  | heightRatio (value : α)
  | marginRatio (value : α)
  | overlayOpacity (value : α)
  deriving DecidableEq, Repr

namespace Layout

variable {α : Type} [Scalar α]

/-- A fraction that is more than 0 and at most 1. -/
def isRatio (x : α) : Bool := 0 < x && x ≤ 1

/-- The first of the four numbers that is out of its range, if there is one. -/
def validate (l : Layout α) : Except (Invalid α) Unit :=
  if !isRatio l.widthRatio then .error (.widthRatio l.widthRatio)
  else if !isRatio l.heightRatio then .error (.heightRatio l.heightRatio)
  else if !(0 ≤ l.marginRatio && l.marginRatio < 1) then .error (.marginRatio l.marginRatio)
  else if !(0 ≤ l.overlayOpacity && l.overlayOpacity ≤ 1) then
    .error (.overlayOpacity l.overlayOpacity)
  else .ok ()

end Layout

namespace Config

variable {α : Type} [Scalar α]

/-- The sizes are checked first, then the layout. -/
def validate (c : Config α) : Except (Invalid α) Unit :=
  if c.sources.primary.size.isEmpty then
    .error (.emptySize (.source .primary) c.sources.primary.size)
  else if c.sources.secondary.size.isEmpty then
    .error (.emptySize (.source .secondary) c.sources.secondary.size)
  else if c.output.isEmpty then .error (.emptySize .output c.output)
  else c.layout.validate

end Config

end PictureInPicture
