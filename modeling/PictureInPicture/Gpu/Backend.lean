-- The backend that draws with the graphics device. The device reports errors by the way,
-- not as the answer of a call. The first of them is kept until the end of a frame, and a
-- frame with an error before its end is not shown.
import PictureInPicture.Backend
import PictureInPicture.Gpu.Draw
import PictureInPicture.Gpu.Program
import PictureInPicture.Gpu.Texture

namespace PictureInPicture.Gpu

/-! ## Devices -/

/-- A device with a window surface, with states in `δ`. Each call may raise errors, which
are listed in order. -/
structure Device (δ : Type) where
  acquire : δ → δ × SurfaceStatus
  configure : δ → SurfaceConfig → δ × List String
  write : δ → TextureWrite → δ × List String
  submit : δ → SurfaceStatus → Prepared Float32 → δ × List String

/-- The error that is kept when more of them are raised: the first of all. -/
def keepFirst (kept : Option String) (raised : List String) : Option String :=
  kept.or raised.head?

/-- The textures, the surface and the device, with the error that is not reported yet. -/
structure State (δ : Type) where
  declared : Both Source
  textures : Both SourceTextures
  surface : SurfaceConfig
  kept : Option String
  device : δ

namespace State

variable {δ : Type}

/-- The format that the surface is set up with at the start. -/
def initialFormat : TextureFormat := .bgra8UnormSrgb

/-- A device that is set up for settings, with what that does: the surface is configured
and all the programs are compiled. -/
def create {α : Type} (c : Config α) (device : δ) : State δ × List Effect :=
  let surface := SurfaceConfig.of c.output initialFormat
  ({ declared := c.sources
     textures := c.sources.map .allocate
     surface
     kept := none
     device },
    .surface (.configure surface) :: Program.all.map fun p => .notice (.programCompiled p))

/-- The device after some writes, with the errors that they raised. -/
def writeAll (d : Device δ) : δ → List TextureWrite → δ × List String
  | device, [] => (device, [])
  | device, w :: ws =>
    let (device, raised) := d.write device w
    let (device, more) := writeAll d device ws
    (device, raised ++ more)

/-- An upload without the check of the whole frame. -/
def uploadTextures (d : Device δ) (s : State δ) (role : Role) (frame : Frame) :
    Reply (State δ) Unit :=
  let (writes, result) := (s.textures.get role).upload role frame
  let (device, raised) := writeAll d s.device writes
  let s := { s with device, kept := keepFirst s.kept raised }
  match result with
  | .ok () => ⟨s, .done (), []⟩
  | .error (.refused fault) => ⟨s, .failed (.invalidBuffer fault), []⟩
  | .error (.crashed crash) => ⟨s, .crashed crash, []⟩

/-- A frame is checked as a whole before any plane of it is written. -/
def upload (d : Device δ) (s : State δ) (role : Role) (frame : Frame) :
    Reply (State δ) Unit :=
  match frame.validateFor role (s.declared.get role) with
  | .error fault => ⟨s, .failed (.invalidBuffer fault), []⟩
  | .ok () => s.uploadTextures d role frame

/-- The fault of a surface that gives no frame and no reason. -/
def acquireFault : Fault :=
  .gpuOperation
    ("failed to acquire output frame: Acquiring a texture failed with a generic error. " ++
      "Check error callbacks for more information")

/-- Draws into a frame of the surface. It is shown when no error has been kept by then, and
the kept error is reported otherwise. -/
def drawInto (d : Device δ) (s : State δ) (status : SurfaceStatus)
    (ops : List (DrawOp Float32)) (stamp : Stamp) : Reply (State δ) Presentation :=
  let prepared := prepare ops
  let (device, raised) := d.submit s.device status prepared
  match keepFirst s.kept raised with
  | some error =>
    ⟨{ s with device, kept := none }, .failed (.gpuOperation error), [.surface .discard]⟩
  | none =>
    ⟨{ s with device, kept := none }, .done .presented,
      [.surface .present, .notice (.framePresented stamp prepared.draws.length)]⟩

/-- Asks the surface for a frame and draws into it. A lost surface is configured again, and
nothing is drawn then. -/
def render (d : Device δ) (s : State δ) (ops : List (DrawOp Float32)) (stamp : Stamp) :
    Reply (State δ) Presentation :=
  let (device, status) := d.acquire s.device
  let s := { s with device }
  let reply : Reply (State δ) Presentation :=
    match status with
    | .lost | .outdated =>
      let (device, raised) := d.configure s.device s.surface
      ⟨{ s with device, kept := keepFirst s.kept raised }, .done .skipped,
        [.notice (.surfaceLost stamp.index), .surface (.configure s.surface)]⟩
    | .timeout => ⟨s, .done .skipped, [.notice (.acquireTimedOut stamp.index)]⟩
    | .unknown => ⟨s, .failed acquireFault, []⟩
    | .good | .suboptimal | .foreign => s.drawInto d status ops stamp
  { reply with effects := .surface (.acquire status) :: reply.effects }

end State

/-- The backend of a device. -/
def backend {δ : Type} (d : Device δ) : Backend (State δ) := ⟨State.upload d, State.render d⟩

/-! ## A device that follows a script -/

/-- A device without hardware. Its surface gives the listed statuses and is good after
them. It knows which packing the textures of each source have. -/
structure Scripted where
  statuses : List SurfaceStatus
  bound : Both Packing
  deriving Repr

namespace Scripted

/-- The error of a command that does not fit together, and of a text that is no program. -/
def validationError : String := "Validation Error"

/-- It takes the texts of the programs, and no other text. -/
def compiler : Compiler := fun program text =>
  if text = program.source then none else some validationError

/-- A draw samples its source with the pipeline that its textures are bound for. -/
def fits (s : Scripted) (draw : Draw) : Bool :=
  match draw.pipeline, draw.source with
  | .textured packing, some role => s.bound.get role = packing
  | _, _ => true

def device : Device Scripted where
  acquire s := ({ s with statuses := s.statuses.tail }, s.statuses.head?.getD .good)
  configure s _ := (s, [])
  write s _ := (s, [])
  submit s status prepared :=
    (s, if status = .foreign || !prepared.draws.all s.fits then [validationError] else [])

/-- A device for settings that gives the listed statuses. -/
def of {α : Type} (c : Config α) (statuses : List SurfaceStatus) : Scripted :=
  ⟨statuses, c.sources.map (·.format.packing)⟩

end Scripted

end PictureInPicture.Gpu
