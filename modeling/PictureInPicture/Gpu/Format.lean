-- What a window surface offers: its pixel formats, its ways of presenting frames and of
-- treating the alpha channel. One of each is chosen before the first frame.
import PictureInPicture.Config

namespace PictureInPicture.Gpu

/-! ## Pixel formats -/

/-- What is asked of a format that is not told apart from others. -/
structure OtherFormat where
  name : String
  /-- The name of the same format without a second encoding. Where there is none it is the same. -/
  linearName : String
  /-- The bytes of a pixel. -/
  channels : UInt32
  isRenderable : Bool
  deriving DecidableEq, Repr

/-- The format of the pixels of a texture. -/
inductive TextureFormat where
  | r8Unorm
  | rgba8Unorm
  | rgba8UnormSrgb
  | rgba8Snorm
  | rgba8Uint
  | bgra8Unorm
  | bgra8UnormSrgb
  | rgb10a2Unorm
  | rg11b10Ufloat
  | rgba16Float
  /-- Any other format. -/
  | other (format : OtherFormat)
  deriving DecidableEq, Repr

namespace TextureFormat

def name : TextureFormat → String
  | r8Unorm => "R8Unorm"
  | rgba8Unorm => "Rgba8Unorm"
  | rgba8UnormSrgb => "Rgba8UnormSrgb"
  | rgba8Snorm => "Rgba8Snorm"
  | rgba8Uint => "Rgba8Uint"
  | bgra8Unorm => "Bgra8Unorm"
  | bgra8UnormSrgb => "Bgra8UnormSrgb"
  | rgb10a2Unorm => "Rgb10a2Unorm"
  | rg11b10Ufloat => "Rg11b10Ufloat"
  | rgba16Float => "Rgba16Float"
  | other format => format.name

/-- The formats that are told apart here. -/
def all : List TextureFormat :=
  [r8Unorm, rgba8Unorm, rgba8UnormSrgb, rgba8Snorm, rgba8Uint, bgra8Unorm, bgra8UnormSrgb,
    rgb10a2Unorm, rg11b10Ufloat, rgba16Float]

/-- Written values are encoded for the screen once more. -/
def isSrgb : TextureFormat → Bool
  | rgba8UnormSrgb | bgra8UnormSrgb => true
  | other format => format.linearName ≠ format.name
  | _ => false

/-- The same format without the second encoding. -/
def linear : TextureFormat → TextureFormat
  | rgba8UnormSrgb => rgba8Unorm
  | bgra8UnormSrgb => bgra8Unorm
  | other format => other { format with name := format.linearName }
  | format => format

/-- Four channels of eight bits, for colors. -/
def isEightBitColor : TextureFormat → Bool
  | rgba8Unorm | bgra8Unorm | rgba8UnormSrgb | bgra8UnormSrgb => true
  | _ => false

/-- Frames can be drawn into a texture of the format. -/
def isRenderable : TextureFormat → Bool
  | rgba8Snorm | rgba8Uint | rg11b10Ufloat => false
  | other format => format.isRenderable
  | _ => true

/-- A list of formats in brackets. -/
def listText (formats : List TextureFormat) : String :=
  "[" ++ ", ".intercalate (formats.map name) ++ "]"

end TextureFormat

/-! ## Presenting -/

/-- A way in which a surface shows finished frames. -/
inductive PresentMode where
  | autoVsync
  | autoNoVsync
  | fifo
  | fifoRelaxed
  | immediate
  | mailbox
  deriving DecidableEq, Repr

namespace PresentMode

def name : PresentMode → String
  | autoVsync => "AutoVsync"
  | autoNoVsync => "AutoNoVsync"
  | fifo => "Fifo"
  | fifoRelaxed => "FifoRelaxed"
  | immediate => "Immediate"
  | mailbox => "Mailbox"

def all : List PresentMode := [autoVsync, autoNoVsync, fifo, fifoRelaxed, immediate, mailbox]

def ofPreference : PresentPreference → PresentMode
  | .mailbox => mailbox
  | .fifo => fifo

end PresentMode

/-- A way in which a surface treats the alpha channel of frames. -/
inductive AlphaMode where
  | auto
  /-- The alpha channel is left out. -/
  | solid
  | preMultiplied
  | postMultiplied
  | inherit
  deriving DecidableEq, Repr

namespace AlphaMode

def name : AlphaMode → String
  | auto => "Auto"
  | solid => "Opaque"
  | preMultiplied => "PreMultiplied"
  | postMultiplied => "PostMultiplied"
  | inherit => "Inherit"

def all : List AlphaMode := [auto, solid, preMultiplied, postMultiplied, inherit]

end AlphaMode

end PictureInPicture.Gpu
