-- The choice of a surface configuration among what a surface offers, and the calls that are
-- made on a configured surface.
import PictureInPicture.Notice

namespace PictureInPicture.Gpu

/-! ## The choice -/

/-- The sizes that are held against the limits of a device, in the order of the check. -/
def checkedSizes {α : Type} (c : Config α) : List (String × Size) :=
  [("output", c.output), ("primary", c.sources.primary.size),
    ("secondary", c.sources.secondary.size)]

/-- The output and both sources fit a device with textures of at most `limit` pixels on
each side. Otherwise the first that does not is named. -/
def checkLimits {α : Type} (limit : UInt32) (c : Config α) : Except String Unit :=
  match (checkedSizes c).find? fun (_, size) => !size.fits limit with
  | none => .ok ()
  | some (name, size) =>
    .error ("GPU max texture dimension is " ++ toString limit ++ ", " ++ name ++ " is " ++
      size.text)

/-- The first eight-bit color format, and the first linear one before that. -/
def selectFormat (formats : List TextureFormat) :
    Except String (TextureFormat × List Notice) :=
  let candidates := formats.filter (·.isEightBitColor)
  match candidates.find? (!·.isSrgb) with
  | some format => .ok (format, [])
  | none =>
    match candidates.head? with
    | some format => .ok (format, [.linearFormatMissing format])
    | none =>
      .error ("no 8-bit RGBA surface format among " ++ TextureFormat.listText formats)

/-- The formats that views of a surface may have besides its own. -/
def viewFormats (format : TextureFormat) : List TextureFormat :=
  if format.isSrgb then [format.linear] else []

/-- The preferred mode where it is offered, and a queue otherwise. -/
def selectPresentMode (modes : List PresentMode) (preference : PresentPreference) :
    PresentMode × List Notice :=
  let preferred := PresentMode.ofPreference preference
  if modes.contains preferred then (preferred, [])
  else (.fifo, [.presentModeMissing preferred])

/-- No alpha where it is offered, and the first mode otherwise. -/
def selectAlphaMode (modes : List AlphaMode) : AlphaMode :=
  if modes.contains .solid then .solid else modes.head?.getD .auto

/-- The number of waiting frames that is asked for, held between 1 and 3. -/
def frameLatency (d : DevicePreferences) : UInt32 × List Notice :=
  let clamped := min (max d.maxFrameLatency 1) 3
  (clamped, if clamped = d.maxFrameLatency then [] else [.latencyClamped d.maxFrameLatency clamped])

/-- How a surface is set up. -/
structure SurfaceConfig where
  size : Size
  format : TextureFormat
  views : List TextureFormat
  deriving DecidableEq, Repr

/-- The surface of a format, with a linear view where the format needs one. -/
def SurfaceConfig.of (size : Size) (format : TextureFormat) : SurfaceConfig :=
  ⟨size, format, viewFormats format⟩

/-- The format that frames are drawn in. -/
def SurfaceConfig.renderFormat (c : SurfaceConfig) : TextureFormat := c.format.linear

/-! ## Calls -/

/-- What a surface gives when a frame is asked for. -/
inductive SurfaceStatus where
  | good
  | suboptimal
  | timeout
  | outdated
  | lost
  | unknown
  /-- A frame that cannot be drawn to. -/
  | foreign
  deriving DecidableEq, Repr

namespace SurfaceStatus

def name : SurfaceStatus → String
  | good => "good"
  | suboptimal => "suboptimal"
  | timeout => "timeout"
  | outdated => "outdated"
  | lost => "lost"
  | unknown => "unknown"
  | foreign => "foreign"

def all : List SurfaceStatus := [good, suboptimal, timeout, outdated, lost, unknown, foreign]

end SurfaceStatus

/-- A call on a surface. -/
inductive SurfaceCall where
  | acquire (status : SurfaceStatus)
  | configure (config : SurfaceConfig)
  | present
  /-- A frame is given back and not shown. -/
  | discard
  deriving DecidableEq, Repr

namespace SurfaceCall

def text : SurfaceCall → String
  | acquire status => "acquire " ++ status.name
  | configure config =>
    "configure " ++ config.size.text ++ " " ++ config.format.name ++ " views " ++
      TextureFormat.listText config.views
  | present => "present"
  | discard => "discard"

end SurfaceCall

end PictureInPicture.Gpu
