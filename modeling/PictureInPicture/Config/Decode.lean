-- Settings read from the values of a document. The entries of a table are read in their
-- order and the first one that fails decides; a key that is missing shows at the end of its
-- table. A record may also be a list of its fields.
import PictureInPicture.Config.Fault
import PictureInPicture.Decimal.Precision
import PictureInPicture.Toml.Value

namespace PictureInPicture.Decode

open Toml (Value)

/-- What a value is read as, or why it cannot be. -/
abbrev Result (β : Type) := Except DecodeFault β

/-! ## Single values -/

def boolean : Value → Result Bool
  | .boolean b => .ok b
  | _ => .error .unexpected

def uint32 : Value → Result UInt32
  | .integer n =>
    if 0 ≤ n && n < UInt32.size then .ok (UInt32.ofNat n.toNat) else .error .unexpected
  | _ => .error .unexpected

def uint64 : Value → Result UInt64
  | .integer n =>
    if 0 ≤ n && n < UInt64.size then .ok (UInt64.ofNat n.toNat) else .error .unexpected
  | _ => .error .unexpected

/-- A number of single precision. A whole number will do. -/
def number : Value → Result Float32
  | .float x => .ok (Decimal.narrow x)
  | .integer n => .ok (Float32.ofInt n)
  | _ => .error .unexpected

def rotation (v : Value) : Result Rotation := do
  let degrees ← uint32 v
  match Rotation.ofDegrees? degrees.toNat with
  | some r => .ok r
  | none => .error (.rotation degrees.toNat)

/-! ## Choices by name -/

variable {β σ : Type}

/-- The choice of a name among all there are. -/
def variant (name : β → String) (all : List β) (s : String) : Result β :=
  match all.find? (name · = s) with
  | some x => .ok x
  | none => .error (.unknownVariant s (all.map name))

/-- A choice: its name, or a table that holds the name alone with nothing under it. -/
def choice (name : β → String) (all : List β) : Value → Result β
  | .text s => variant name all s
  | .table [(key, v)] => do
    let x ← variant name all key
    match v with
    | .table [] | .array [] => .ok x
    | _ => .error .unexpected
  | _ => .error .unexpected

/-- A choice inside a format. Here a date-time is read as a table, and a list holds
nothing. -/
def formatChoice (name : β → String) (all : List β) (v : Value) : Result β :=
  match v, v.entries? with
  | .text s, _ => variant name all s
  | _, some [(key, inner)] => do
    let x ← variant name all key
    match inner with
    | .table [] => .ok x
    | _ => .error .unexpected
  | _, _ => .error .unexpected

/-! ## Records -/

/-- The fields that a value gives to a record: by name, or by place in the order of
`names`. -/
def fields (names : List String) : Value → Result (List (String × Value))
  | .array items => .ok (names.zip items)
  | v => match v.entries? with
    | some entries => .ok entries
    | none => .error .unexpected

/-- Reads the fields of a record one after the other into what is known so far. A key that
`field` does not know leaves that as it is. -/
def record (names : List String) (field : String → Value → σ → Result σ) (start : σ)
    (v : Value) : Result σ := do
  (← fields names v).foldlM (fun known (key, x) => field key x known) start

/-- A field that has to be there. -/
def required (v : Value) (name : String) : Option β → Result β
  | some x => .ok x
  | none =>
    match v with
    | .array _ => .error .unexpected
    | _ => .error (.missingField name)

def size (v : Value) : Result Size := do
  let (width, height) ← record ["width", "height"]
    (fun key x (width, height) =>
      match key with
      | "width" => return (some (← uint32 x), height)
      | "height" => return (width, some (← uint32 x))
      | _ => return (width, height))
    (none, none) v
  return ⟨← required v "width" width, ← required v "height" height⟩

/-! ## Formats -/

def channelOrder : Value → Result ChannelOrder := formatChoice ChannelOrder.name ChannelOrder.all

def subsampling : Value → Result Subsampling := formatChoice Subsampling.name Subsampling.all

def packing : Value → Result Packing
  | .text s => variant Packing.name Packing.all s
  | _ => .error .unexpected

/-- The format of a packing, with the value of its one field, if there is one. -/
def formatOf (packing : Packing) (detail : Option Value) : Result PixelFormat :=
  match packing, detail with
  | .packed, some v => .packed <$> channelOrder v
  | .packed, none => .ok (.packed .rgba)
  | .planar, some v => .planar <$> subsampling v
  | .planar, none => .ok (.planar .yuv420)

/-- The key of the one field that a format of a packing has. -/
def detailKey : Packing → String
  | .packed => "order"
  | .planar => "subsampling"

/-- A format: a table with its packing under `kind`, or a list that begins with it. -/
def format : Value → Result PixelFormat
  | .array [] => .error (.missingField "kind")
  | .array [kind] => do formatOf (← packing kind) none
  | .array [kind, detail] => do formatOf (← packing kind) (some detail)
  | .array (kind :: detail :: _ :: _) => do
    let _ ← formatOf (← packing kind) (some detail)
    .error .unexpected
  | v =>
    match v.entries? with
    | some entries =>
      match entries.lookup "kind" with
      | some kind => do
        let packing ← packing kind
        formatOf packing (entries.lookup (detailKey packing))
      | none => .error (.missingField "kind")
    | none => .error .unexpected

def source (v : Value) : Result Source := do
  let (size, format) ← record ["size", "format"]
    (fun key x (size?, format?) =>
      match key with
      | "size" => return (some (← size x), format?)
      | "format" => return (size?, some (← format x))
      | _ => return (size?, format?))
    (none, none) v
  return ⟨← required v "size" size, format.getD default⟩

/-! ## The settings -/

def role : Value → Result Role := choice Role.name Role.all

def layout : Value → Result (Layout Float32) :=
  record
    ["background", "anchor", "width_ratio", "height_ratio", "margin_ratio", "rotation",
      "overlay_opacity", "overlay_frame"]
    (fun key x l =>
      match key with
      | "background" => return { l with background := ← role x }
      | "anchor" => return { l with anchor := ← choice Anchor.name Anchor.all x }
      | "width_ratio" => return { l with widthRatio := ← number x }
      | "height_ratio" => return { l with heightRatio := ← number x }
      | "margin_ratio" => return { l with marginRatio := ← number x }
      | "rotation" => return { l with rotation := ← rotation x }
      | "overlay_opacity" => return { l with overlayOpacity := ← number x }
      | "overlay_frame" => return { l with overlayFrame := ← boolean x }
      | _ => return l)
    .standard

def device : Value → Result DevicePreferences :=
  record ["power", "max_frame_latency", "present_mode"]
    (fun key x d =>
      match key with
      | "power" => return { d with power := ← choice PowerPreference.name PowerPreference.all x }
      | "max_frame_latency" => return { d with maxFrameLatency := ← uint32 x }
      | "present_mode" =>
        return { d with presentMode := ← choice PresentPreference.name PresentPreference.all x }
      | _ => return d)
    .standard

def config : Value → Result (Config Float32) :=
  record
    ["primary", "secondary", "output", "layout", "startup", "gpu", "diagnostics_interval"]
    (fun key x c =>
      match key with
      | "primary" => return { c with sources := c.sources.set .primary (← source x) }
      | "secondary" => return { c with sources := c.sources.set .secondary (← source x) }
      | "output" => return { c with output := ← size x }
      | "layout" => return { c with layout := ← layout x }
      | "startup" => return { c with startup := ← choice StartupPolicy.name StartupPolicy.all x }
      | "gpu" => return { c with device := ← device x }
      | "diagnostics_interval" => return { c with diagnosticsInterval := ← uint64 x }
      | _ => return c)
    .standard

end PictureInPicture.Decode
