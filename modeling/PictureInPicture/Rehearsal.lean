-- Backends for rehearsals. A backend that does nothing stands in for a real one, and any
-- backend may be told how some of its calls end.
import PictureInPicture.Raster.Backend
import PictureInPicture.Gpu.Backend
import PictureInPicture.Session.Owner

namespace PictureInPicture.Rehearsal

/-! ## Engines -/

/-- The backend that works behind a rehearsal. -/
inductive Engine where
  /-- Every call succeeds and does nothing. -/
  | idle
  | raster (state : Raster.State)
  | device (state : Gpu.State Gpu.Scripted)

/-- The same answer of a part in the place of the whole. -/
def mapState {σ τ β : Type} (f : σ → τ) (r : Reply σ β) : Reply τ β :=
  ⟨f r.state, r.outcome, r.effects⟩

namespace Engine

def upload (e : Engine) (role : Role) (frame : Frame) : Reply Engine Unit :=
  match e with
  | idle => ⟨idle, .done (), []⟩
  | raster s => mapState raster (s.upload role frame)
  | device s => mapState device (s.upload Gpu.Scripted.device role frame)

def render (e : Engine) (ops : List (DrawOp Float32)) (stamp : Stamp) :
    Reply Engine Presentation :=
  match e with
  | idle => ⟨idle, .done .presented, []⟩
  | raster s => mapState raster (s.render ops stamp)
  | device s => mapState device (s.render Gpu.Scripted.device ops stamp)

/-- Nobody takes pictures any more. -/
def disconnect : Engine → Engine
  | raster s => raster s.disconnect
  | e => e

end Engine

/-! ## Cues -/

/-- How an upload ends. -/
inductive UploadCue where
  | plain
  | reject
  | fatal
  | crash
  deriving DecidableEq, Repr

/-- How a drawing ends. -/
inductive RenderCue where
  | plain
  | skip
  | reject
  | fatal
  | crash
  deriving DecidableEq, Repr

/-- An engine with cues for its next calls. A call without a cue is plain. -/
structure Cast where
  engine : Engine
  uploads : List UploadCue
  renders : List RenderCue

namespace Cast

def rejectedUpload : Fault := .invalidBuffer (.zeroDimension ⟨0, 7⟩)

def rejectedRender : Fault := .invalidBuffer (.zeroDimension ⟨0, 8⟩)

def upload (c : Cast) (role : Role) (frame : Frame) : Reply Cast Unit :=
  let next := { c with uploads := c.uploads.tail }
  match c.uploads.head?.getD .plain with
  | .plain => mapState ({ next with engine := · }) (c.engine.upload role frame)
  | .reject => ⟨next, .failed rejectedUpload, []⟩
  | .fatal => ⟨next, .failed (.gpuOperation "scripted upload"), []⟩
  | .crash => ⟨next, .crashed .staged, []⟩

def render (c : Cast) (ops : List (DrawOp Float32)) (stamp : Stamp) :
    Reply Cast Presentation :=
  let next := { c with renders := c.renders.tail }
  match c.renders.head?.getD .plain with
  | .plain => mapState ({ next with engine := · }) (c.engine.render ops stamp)
  | .skip => ⟨next, .done .skipped, []⟩
  | .reject => ⟨next, .failed rejectedRender, []⟩
  | .fatal => ⟨next, .failed (.gpuOperation "scripted render"), []⟩
  | .crash => ⟨next, .crashed .staged, []⟩

def disconnect (c : Cast) : Cast := { c with engine := c.engine.disconnect }

end Cast

def backend : Backend Cast := ⟨Cast.upload, Cast.render⟩

/-! ## Openings -/

/-- How a session gets its backend. -/
inductive Opening where
  | idle
  | raster
  | device (statuses : List Gpu.SurfaceStatus)
  /-- A window surface for a window that has no handle. -/
  | noWindow
  | fails (fault : Fault)
  | crashes

namespace Opening

/-- The fault of a surface without a window. -/
def noSurface : Fault := .initialization .surface "failed to create rendering surface"

/-- The engine for settings. -/
def engine (o : Opening) (config : Config Float32) : Creation Engine :=
  match o with
  | idle => ⟨.done .idle, []⟩
  | raster =>
    let outcome := match Raster.State.create config with
      | .ok state => .done (.raster state)
      | .error crash => .crashed crash
    ⟨outcome, [.notice (.softwareReady config.output)]⟩
  | device statuses =>
    let (state, effects) := Gpu.State.create config (Gpu.Scripted.of config statuses)
    ⟨.done (.device state), effects⟩
  | noWindow => ⟨.failed noSurface, []⟩
  | fails fault => ⟨.failed fault, []⟩
  | crashes => ⟨.crashed .staged, []⟩

/-- A factory for the engine, with cues for its calls. -/
def factory (o : Opening) (uploads : List UploadCue) (renders : List RenderCue) :
    Factory Cast := fun config =>
  let creation := o.engine config
  { outcome := match creation.outcome with
      | .done engine => .done ⟨engine, uploads, renders⟩
      | .failed fault => .failed fault
      | .crashed crash => .crashed crash
    effects := creation.effects }

end Opening

/-- Nobody takes the pictures of the running session any more. -/
def disconnect (w : World Cast) : World Cast :=
  let cut (a : Active Cast) : Active Cast :=
    { a with loop := { a.loop with backend := a.loop.backend.disconnect } }
  match w.thread with
  | .idle active => { w with thread := .idle (active.map cut) }
  | .reaching active role => { w with thread := .reaching (cut active) role }
  | .uploading active role frame => { w with thread := .uploading (cut active) role frame }
  | .failing active fault => { w with thread := .failing (cut active) fault }
  | .gone => w

end PictureInPicture.Rehearsal
