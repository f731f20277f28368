-- Settings written as the values of a document, with every key there is.
import PictureInPicture.Config
import PictureInPicture.Decimal.Precision
import PictureInPicture.Toml.Value

namespace PictureInPicture.Encode

open Toml (Value)

/-- A number of single precision. Double precision holds it exactly. -/
def number (x : Float32) : Value := .float (Decimal.widen x)

def natural (n : Nat) : Value := .integer n

def size (s : Size) : Value :=
  .table [("width", natural s.width.toNat), ("height", natural s.height.toNat)]

def format : PixelFormat → Value
  | .packed order => .table [("kind", .text Packing.packed.name), ("order", .text order.name)]
  | .planar subsampling =>
    .table [("kind", .text Packing.planar.name), ("subsampling", .text subsampling.name)]

def source (s : Source) : Value := .table [("size", size s.size), ("format", format s.format)]

def layout (l : Layout Float32) : Value :=
  .table
    [("background", .text l.background.name),
      ("anchor", .text l.anchor.name),
      ("width_ratio", number l.widthRatio),
      ("height_ratio", number l.heightRatio),
      ("margin_ratio", number l.marginRatio),
      ("rotation", natural l.rotation.degrees),
      ("overlay_opacity", number l.overlayOpacity),
      ("overlay_frame", .boolean l.overlayFrame)]

def device (d : DevicePreferences) : Value :=
  .table
    [("power", .text d.power.name),
      ("max_frame_latency", natural d.maxFrameLatency.toNat),
      ("present_mode", .text d.presentMode.name)]

def config (c : Config Float32) : Value :=
  .table
    [("primary", source c.sources.primary),
      ("secondary", source c.sources.secondary),
      ("output", size c.output),
      ("layout", layout c.layout),
      ("startup", .text c.startup.name),
      ("gpu", device c.device),
      ("diagnostics_interval", natural c.diagnosticsInterval.toNat)]

end PictureInPicture.Encode
