-- The part of a compositor that holds textures and draws. The render loop knows it by two
-- calls only, so it runs with every backend.
import PictureInPicture.Gpu.Surface
import PictureInPicture.Frame
import PictureInPicture.Plan

namespace PictureInPicture

/-- A finished picture, four bytes for each pixel, the rows from the top. -/
structure OutputFrame where
  size : Size
  stamp : Stamp
  pixels : ByteArray

namespace OutputFrame

/-- The four bytes of a pixel. Only their place in the data is checked. -/
def pixel? (f : OutputFrame) (x y : Nat) : Option ByteArray :=
  let offset := (y * f.size.width.toNat + x) * 4
  if offset + 4 ≤ f.pixels.size then some (f.pixels.extract offset (offset + 4)) else none

/-- The rows from the top. An empty picture has none. -/
def rows (f : OutputFrame) : List ByteArray :=
  let width := 4 * f.size.width.toNat
  if f.pixels.size = 0 then []
  else (List.range f.size.height.toNat).map fun y => f.pixels.extract (y * width) ((y + 1) * width)

end OutputFrame

/-- What a backend does besides answering. -/
inductive Effect where
  | notice (notice : Notice)
  | surface (call : Gpu.SurfaceCall)
  | frame (frame : OutputFrame)

namespace Effect

def notice? : Effect → Option Notice
  | notice n => some n
  | _ => none

def surface? : Effect → Option Gpu.SurfaceCall
  | surface call => some call
  | _ => none

def frame? : Effect → Option OutputFrame
  | frame f => some f
  | _ => none

end Effect

/-- How a call on a backend ends. -/
inductive Outcome (β : Type) where
  | done (value : β)
  | failed (fault : Fault)
  | crashed (crash : Crash)
  deriving Repr, DecidableEq

/-- What became of a frame that a backend was asked to draw. -/
inductive Presentation where
  /-- It was drawn and handed to the output. -/
  | presented
  /-- The output could not take a frame, and nothing was drawn. -/
  | skipped
  deriving DecidableEq, Repr

def Presentation.name : Presentation → String
  | presented => "Presented"
  | skipped => "Skipped"

/-- The answer of a backend in the state `σ`. -/
structure Reply (σ β : Type) where
  state : σ
  outcome : Outcome β
  effects : List Effect

/-- A backend with states in `σ`. -/
structure Backend (σ : Type) where
  /-- Overwrites the texture of a source with a frame. -/
  upload : σ → Role → Frame → Reply σ Unit
  /-- Clears to opaque black, draws the steps in order and hands the picture to the
  output. -/
  render : σ → List (DrawOp Float32) → Stamp → Reply σ Presentation

end PictureInPicture
