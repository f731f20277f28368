-- The backend that draws in memory. Its pictures go to a receiver, which may be gone.
import PictureInPicture.Backend
import PictureInPicture.Raster.Canvas

namespace PictureInPicture.Raster

/-- Textures, the picture that is drawn, and whether somebody still takes pictures. -/
structure State where
  declared : Both Source
  textures : Both Texture
  canvas : Canvas Float32
  receiving : Bool

namespace State

/-- The start: textures of zeros and a black picture. -/
def blank {α : Type} (c : Config α) : State where
  declared := c.sources
  textures := c.sources.map Texture.blank
  canvas := .blank c.output
  receiving := true

/-- The numbers of bytes in the memories of the start. A pixel of the picture has sixteen. -/
def memories {α : Type} (c : Config α) : List Nat :=
  c.sources.toList.flatMap Texture.memories ++ [c.output.area * 16]

/-- The start, if its bytes can be addressed. -/
def create {α : Type} (c : Config α) : Except Crash State := do
  reserve (memories c)
  return blank c

/-- Nobody takes pictures any more. -/
def disconnect (s : State) : State := { s with receiving := false }

/-- A frame is checked as a whole before any plane of it is copied. -/
def upload (s : State) (role : Role) (frame : Frame) : Reply State Unit :=
  let declared := s.declared.get role
  match frame.validateFor role declared with
  | .error fault => ⟨s, .failed (.invalidBuffer fault), []⟩
  | .ok () =>
    let (texture, result) :=
      (s.textures.get role).upload role declared.format.packing frame
    let s := { s with textures := s.textures.set role texture }
    match result with
    | .ok () => ⟨s, .done (), []⟩
    | .error (.refused fault) => ⟨s, .failed (.invalidBuffer fault), []⟩
    | .error (.crashed crash) => ⟨s, .crashed crash, []⟩

/-- The fault of a picture that nobody takes. -/
def disconnected : Fault := .gpuOperation "software output sink disconnected"

/-- The picture is drawn from black every time. When a step of drawing crashes the picture
is lost, and the next one starts from black again. -/
def render (s : State) (ops : List (DrawOp Float32)) (stamp : Stamp) :
    Reply State Presentation :=
  match s.canvas.clear.drawAll s.textures ops with
  | .error crash => ⟨s, .crashed crash, []⟩
  | .ok canvas =>
    let s := { s with canvas }
    if s.receiving then
      ⟨s, .done .presented, [.frame ⟨canvas.size, stamp, canvas.bytes⟩]⟩
    else ⟨s, .failed disconnected, []⟩

end State

def backend : Backend State := ⟨State.upload, State.render⟩

end PictureInPicture.Raster
