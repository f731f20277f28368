-- The faults of a compositor, with their wording. A refused buffer costs one frame. Every
-- other fault ends the session.
import PictureInPicture.Buffer.Fault
import PictureInPicture.Config.Fault

namespace PictureInPicture

/-- The step of starting up that failed. -/
inductive InitStage where
  | thread
  | surface
  | adapter
  | device
  | configure
  deriving DecidableEq, Repr

namespace InitStage

/-- The part that could not be had. -/
def subject : InitStage → String
  | thread => "GPU thread"
  | surface => "output surface"
  | adapter => "GPU configuration"
  | device => "GPU context"
  | configure => "surface configuration"

/-- The name of the stage. -/
def label : InitStage → String
  | thread => "Thread"
  | surface => "Surface"
  | adapter => "Adapter"
  | device => "Device"
  | configure => "Configure"

def all : List InitStage := [thread, surface, adapter, device, configure]

end InitStage

/-- What went wrong. -/
inductive Fault where
  | initialization (stage : InitStage) (reason : String)
  | shaderCompilation (program : String) (reason : String)
  | invalidBuffer (fault : BufferFault)
  | gpuOperation (reason : String)
  | config (fault : ConfigFault)
  | alreadyStarted
  deriving DecidableEq, Repr

namespace Fault

def message : Fault → String
  | initialization stage reason =>
    "initialization failed at " ++ stage.subject ++ ": " ++ reason
  | shaderCompilation program reason =>
    "failed to compile " ++ program ++ " shader: " ++ reason
  | invalidBuffer fault => "invalid buffer: " ++ fault.message
  | gpuOperation reason => "GPU operation failed: " ++ reason
  | config fault => fault.message
  | alreadyStarted => "compositor session is already running"

/-- The words of a message behind which a graphics library reports in its own way. -/
def reportMark? : Fault → Option String
  | initialization _ _ => some "failed to create rendering surface"
  | gpuOperation _ => some "GPU operation failed: Validation Error"
  | _ => none

/-- The message without the report of a graphics library. -/
def headline (f : Fault) : String :=
  match f.reportMark? with
  | none => f.message
  | some mark =>
    match f.message.splitOn mark with
    | before :: _ :: _ => before ++ mark
    | _ => f.message

/-- The fault ends the session. -/
def isFatal : Fault → Bool
  | invalidBuffer _ => false
  | _ => true

/-- A failure of a stage of starting up, with the steps around it: the outermost first,
joined by colons. -/
def staged (stage : InitStage) (cause : String) (contexts : List String) : Fault :=
  .initialization stage (": ".intercalate (contexts.reverse ++ [cause]))

end Fault

end PictureInPicture
