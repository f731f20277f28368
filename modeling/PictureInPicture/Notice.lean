-- What a running compositor reports about itself, and the lines of its log.
import PictureInPicture.Fault
import PictureInPicture.Gpu.Format

namespace PictureInPicture

/-! ## Lines of a log -/

inductive Level where
  | debug
  | info
  | warn
  | error
  deriving DecidableEq, Repr

def Level.name : Level → String
  | .debug => "DEBUG"
  | .info => "INFO"
  | .warn => "WARN"
  | .error => "ERROR"

/-- A message with named values. -/
structure LogLine where
  level : Level
  message : String
  fields : List (String × String)
  deriving DecidableEq, Repr

namespace LogLine

def text (l : LogLine) : String :=
  " ".intercalate
    (l.level.name :: l.message :: l.fields.map fun (name, value) => name ++ "=" ++ value)

/-- The line without one of its values. -/
def without (l : LogLine) (field : String) : LogLine :=
  { l with fields := l.fields.filter (·.1 ≠ field) }

end LogLine

/-! ## Stamps and counters -/

/-- The time of a composite, in microseconds since its session started, and its number
within the session. -/
structure Stamp where
  micros : Nat
  index : Nat
  deriving DecidableEq, Repr

/-- The programs of the graphics device. -/
inductive Program where
  | quadVertex
  | packedFragment
  | planarFragment
  | solidFragment
  deriving DecidableEq, Repr

namespace Program

def name : Program → String
  | quadVertex => "quad vertex"
  | packedFragment => "packed fragment"
  | planarFragment => "planar fragment"
  | solidFragment => "solid fragment"

/-- The part of drawing that a program does. -/
def stage : Program → String
  | quadVertex => "Vertex"
  | _ => "Fragment"

/-- The programs in the order in which they are compiled. -/
def all : List Program := [quadVertex, packedFragment, planarFragment, solidFragment]

end Program

/-! ## Notices -/

/-- Something that a compositor reports. -/
inductive Notice where
  | softwareReady (output : Size)
  | programCompiled (program : Program)
  | linearFormatMissing (fallback : Gpu.TextureFormat)
  | presentModeMissing (preferred : Gpu.PresentMode)
  | latencyClamped (requested clamped : UInt32)
  | surfaceLost (frame : Nat)
  | acquireTimedOut (frame : Nat)
  | framePresented (stamp : Stamp) (draws : Nat)
  | malformedFrame (role : Role) (fault : BufferFault)
  | rejectedFrame (role : Role) (fault : Fault)
  | framesUploaded (role : Role) (count : Nat)
  | renderWithheld (policy : StartupPolicy) (mandatory : Role)
  | compositePresented (stamp : Stamp) (fresh : Both Bool) (layers : Nat)
  | renderCounts (rendered skipped : Nat) (dropped : Both Nat)
  | frameDeclined (fresh : Both Bool)
  | sessionStarted (sources : Both Size) (output : Size) (background : Role)
      (startup : StartupPolicy)
  | sessionFaulted (role : Role) (fault : Fault)
  | sessionStopped (rendered : Nat) (uploaded : Both Nat)
  | threadExiting
  deriving DecidableEq, Repr

namespace Notice

/-- The name of the value that a time is logged under. -/
def timeField : String := "timestamp_us"

/-- The two flags of the sources as values of a line. -/
def freshFields (fresh : Both Bool) : List (String × String) :=
  [("primary_fresh", toString fresh.primary), ("secondary_fresh", toString fresh.secondary)]

def line : Notice → LogLine
  | softwareReady output =>
    ⟨.debug, "software compositor ready", [("output", output.text)]⟩
  | programCompiled program =>
    ⟨.debug, "compiled shader", [("program", program.name), ("stage", program.stage)]⟩
  | linearFormatMissing fallback =>
    ⟨.warn, "no linear (non-sRGB) surface format available; rendering through a linear view",
      [("fallback", fallback.name)]⟩
  | presentModeMissing preferred =>
    ⟨.debug, "present mode unavailable; using FIFO", [("preferred", preferred.name)]⟩
  | latencyClamped requested clamped =>
    ⟨.warn, "GPU frame latency clamped to valid range (1-3)",
      [("requested", toString requested), ("clamped", toString clamped)]⟩
  | surfaceLost frame =>
    ⟨.warn, "output surface lost; reconfiguring", [("frame", toString frame)]⟩
  | acquireTimedOut frame =>
    ⟨.warn, "timed out acquiring output frame", [("frame", toString frame)]⟩
  | framePresented stamp draws =>
    ⟨.debug, "presented composite",
      [("frame", toString stamp.index), (timeField, toString stamp.micros),
        ("draws", toString draws)]⟩
  | malformedFrame role fault =>
    ⟨.warn, "dropping malformed frame", [("source", role.name), ("error", fault.message)]⟩
  | rejectedFrame role fault =>
    ⟨.warn, "dropping frame the backend rejected",
      [("source", role.name), ("error", fault.message)]⟩
  | framesUploaded role count =>
    ⟨.info, "source frames uploaded", [("source", role.name), ("frames", toString count)]⟩
  | renderWithheld policy mandatory =>
    ⟨.debug, "render withheld until the mandatory source delivers",
      [("policy", policy.label), ("mandatory", mandatory.name)]⟩
  | compositePresented stamp fresh layers =>
    ⟨.debug, "composite presented",
      [("frame", toString stamp.index), (timeField, toString stamp.micros)] ++
        freshFields fresh ++ [("layers", toString layers)]⟩
  | renderCounts rendered skipped dropped =>
    ⟨.info, "render loop",
      [("rendered", toString rendered), ("skipped", toString skipped),
        ("primary_dropped", toString dropped.primary),
        ("secondary_dropped", toString dropped.secondary)]⟩
  | frameDeclined fresh => ⟨.debug, "output declined frame", freshFields fresh⟩
  | sessionStarted sources output background startup =>
    ⟨.info, "compositor session started",
      [("primary", sources.primary.text), ("secondary", sources.secondary.text),
        ("output", output.text), ("background", background.name), ("startup", startup.label)]⟩
  | sessionFaulted role fault =>
    ⟨.error, "compositor session faulted", [("source", role.name), ("error", fault.message)]⟩
  | sessionStopped rendered uploaded =>
    ⟨.info, "compositor session stopped",
      [("rendered", toString rendered), ("primary", toString uploaded.primary),
        ("secondary", toString uploaded.secondary)]⟩
  | threadExiting => ⟨.debug, "GPU thread exiting", []⟩

end Notice

end PictureInPicture
