-- The state that the producers of a session share with its drawing thread: a slot for one
-- frame of each source, flags and counters. A frame that still waits when the next one
-- arrives is replaced, so frames may be dropped and are never shown twice.
import PictureInPicture.Frame
import PictureInPicture.Notice

namespace PictureInPicture

/-! ## The shared state -/

/-- What became of a frame that was handed in. -/
inductive Submission where
  /-- It waits, and the drawing thread has been told. -/
  | queued
  /-- It waits in the place of a frame that was not picked up. -/
  | replaced
  /-- The session is stopping or gone, and the frame was left out. -/
  | ignored
  deriving DecidableEq, Repr

def Submission.name : Submission → String
  | queued => "Queued"
  | replaced => "Replaced"
  | ignored => "Ignored"

/-- The counters of one source. -/
structure SourceStats where
  uploaded : Nat
  dropped : Nat
  rejected : Nat
  deriving DecidableEq, Repr

/-- The counters of a session. They are numbers without an end: a counter that started again at zero
after `Stats.lastCount` would show the same for as many steps. -/
structure Stats where
  sources : Both SourceStats
  rendered : Nat
  skipped : Nat
  deriving DecidableEq, Repr

/-- The largest number that a counter of 64 bits shows. -/
def Stats.lastCount : Nat := 18446744073709551615

/-- One source of a session. -/
structure Inlet where
  /-- The frame that waits for the drawing thread. -/
  slot : Option Frame
  /-- A frame was uploaded since the last composite that was presented. -/
  fresh : Bool
  stats : SourceStats

def Inlet.empty : Inlet := ⟨none, false, ⟨0, 0, 0⟩⟩

/-- The shared state of one session. -/
structure Inbox where
  stopping : Bool
  inlets : Both Inlet
  declared : Both Source
  rendered : Nat
  skipped : Nat

namespace Inbox

def ofConfig {α : Type} (c : Config α) : Inbox where
  stopping := false
  inlets := .twice .empty
  declared := c.sources
  rendered := 0
  skipped := 0

def requestStop (i : Inbox) : Inbox := { i with stopping := true }

def slot (i : Inbox) (role : Role) : Option Frame := (i.inlets.get role).slot

def modifyInlet (i : Inbox) (role : Role) (f : Inlet → Inlet) : Inbox :=
  { i with inlets := i.inlets.modify role f }

/-- Empties a slot. -/
def withdraw (i : Inbox) (role : Role) : Inbox := i.modifyInlet role ({ · with slot := none })

/-- Puts a frame into a slot, in the place of what was there. -/
def park (i : Inbox) (role : Role) (frame : Frame) : Inbox :=
  i.modifyInlet role ({ · with slot := some frame })

def clearSlots (i : Inbox) : Inbox := (i.withdraw .primary).withdraw .secondary

def markFresh (i : Inbox) (role : Role) : Inbox := i.modifyInlet role ({ · with fresh := true })

/-- Which sources have a frame that no composite has shown. -/
def fresh (i : Inbox) : Both Bool := i.inlets.map (·.fresh)

def clearFresh (i : Inbox) : Inbox := { i with inlets := i.inlets.map ({ · with fresh := false }) }

def modifyStats (i : Inbox) (role : Role) (f : SourceStats → SourceStats) : Inbox :=
  i.modifyInlet role fun inlet => { inlet with stats := f inlet.stats }

def countUploaded (i : Inbox) (role : Role) : Inbox :=
  i.modifyStats role fun s => { s with uploaded := s.uploaded + 1 }

def countDropped (i : Inbox) (role : Role) : Inbox :=
  i.modifyStats role fun s => { s with dropped := s.dropped + 1 }

def countRejected (i : Inbox) (role : Role) : Inbox :=
  i.modifyStats role fun s => { s with rejected := s.rejected + 1 }

def countRendered (i : Inbox) : Inbox := { i with rendered := i.rendered + 1 }

def countSkipped (i : Inbox) : Inbox := { i with skipped := i.skipped + 1 }

def stats (i : Inbox) : Stats := ⟨i.inlets.map (·.stats), i.rendered, i.skipped⟩

/-! ### What each operation leaves as it was -/

section

variable (i : Inbox) (r r' : Role) (f : Inlet → Inlet) (g : SourceStats → SourceStats)

@[simp] theorem stopping_requestStop : i.requestStop.stopping = true := rfl

@[simp] theorem stopping_withdraw : (i.withdraw r).stopping = i.stopping := rfl

@[simp] theorem stopping_park (frame : Frame) : (i.park r frame).stopping = i.stopping := rfl

@[simp] theorem stopping_clearSlots : i.clearSlots.stopping = i.stopping := rfl

theorem inlet_modifyInlet :
    (i.modifyInlet r f).inlets.get r' =
      if r = r' then f (i.inlets.get r) else i.inlets.get r' := Both.get_modify _ _ _ _

theorem slot_withdraw : (i.withdraw r).slot r' = if r = r' then none else i.slot r' := by
  unfold slot withdraw
  rw [inlet_modifyInlet]
  split <;> rfl

theorem slot_park (frame : Frame) :
    (i.park r frame).slot r' = if r = r' then some frame else i.slot r' := by
  unfold slot park
  rw [inlet_modifyInlet]
  split <;> rfl

@[simp] theorem slot_clearSlots : i.clearSlots.slot r = none := by
  unfold clearSlots
  rw [slot_withdraw, slot_withdraw]
  cases r <;> rfl

@[simp] theorem slot_markFresh : (i.markFresh r).slot r' = i.slot r' := by
  unfold slot markFresh
  rw [inlet_modifyInlet]
  split
  · rename_i h; rw [h]
  · rfl

@[simp] theorem slot_clearFresh : i.clearFresh.slot r = i.slot r := by
  simp [slot, clearFresh]

@[simp] theorem slot_modifyStats : (i.modifyStats r g).slot r' = i.slot r' := by
  unfold slot modifyStats
  rw [inlet_modifyInlet]
  split
  · rename_i h; rw [h]
  · rfl

theorem stats_modifyStats :
    (i.modifyStats r g).stats.sources.get r' =
      if r = r' then g (i.stats.sources.get r) else i.stats.sources.get r' := by
  unfold stats modifyStats
  rw [Both.get_map, inlet_modifyInlet]
  split <;> simp

/-- An inlet that keeps its counters under `f` keeps them in the inbox. -/
theorem stats_modifyInlet (h : ∀ inlet, (f inlet).stats = inlet.stats) :
    (i.modifyInlet r f).stats.sources.get r' = i.stats.sources.get r' := by
  unfold stats
  rw [Both.get_map, Both.get_map, inlet_modifyInlet]
  split
  · rename_i hr; rw [h, hr]
  · rfl

@[simp] theorem stats_park (frame : Frame) :
    (i.park r frame).stats.sources.get r' = i.stats.sources.get r' :=
  stats_modifyInlet i r r' _ fun _ => rfl

@[simp] theorem stats_withdraw : (i.withdraw r).stats.sources.get r' = i.stats.sources.get r' :=
  stats_modifyInlet i r r' _ fun _ => rfl

@[simp] theorem stats_clearSlots : i.clearSlots.stats.sources.get r = i.stats.sources.get r := by
  unfold clearSlots
  rw [stats_withdraw, stats_withdraw]

theorem stats_countRejected :
    (i.countRejected r).stats.sources.get r =
      { i.stats.sources.get r with rejected := (i.stats.sources.get r).rejected + 1 } :=
  (stats_modifyStats i r r _).trans (if_pos rfl)

theorem stats_countDropped :
    (i.countDropped r).stats.sources.get r =
      { i.stats.sources.get r with dropped := (i.stats.sources.get r).dropped + 1 } :=
  (stats_modifyStats i r r _).trans (if_pos rfl)

end

/-! ## Handing in a frame -/

/-- The check of a frame. A frame that is refused is counted. -/
def inspect (i : Inbox) (role : Role) (frame : Frame) : Inbox × Except BufferFault Unit :=
  match frame.validateFor role (i.declared.get role) with
  | .ok () => (i, .ok ())
  | .error fault => (i.countRejected role, .error fault)

/-- The end of a submission, after its frame was parked. A stop that came in between takes
the frame back. The thread is told of a frame that displaced none, which the last part of
the answer says. Nobody may listen any more, and then the frame is taken back too. -/
def conclude (i : Inbox) (role : Role) (displaced listening : Bool) :
    Inbox × Submission × Bool :=
  if i.stopping then (i.withdraw role, .ignored, false)
  else if displaced then (i.countDropped role, .replaced, false)
  else if listening then (i, .queued, true)
  else (i.withdraw role, .ignored, false)

/-- What a submission leaves behind. -/
structure Submitted where
  inbox : Inbox
  result : Except BufferFault Submission
  /-- The drawing thread is told of the frame. -/
  posted : Bool
  notices : List Notice

/-- Hands in a frame. `meanwhile` is what others do between the first look at the stop flag
and the check of the frame. -/
def submit (i : Inbox) (role : Role) (frame : Frame) (listening : Bool)
    (meanwhile : Inbox → Inbox) : Submitted :=
  if i.stopping then ⟨i, .ok .ignored, false, []⟩
  else
    let i := meanwhile i
    match i.inspect role frame with
    | (i, .error fault) => ⟨i, .error fault, false, [.malformedFrame role fault]⟩
    | (i, .ok ()) =>
      let displaced := (i.slot role).isSome
      let (i, submission, posted) := (i.park role frame).conclude role displaced listening
      ⟨i, .ok submission, posted, []⟩

/-! ## Picking up a frame -/

/-- The frame that the drawing thread picks up when it is told of one. A session that is
stopping gives none and keeps none. -/
def receive (i : Inbox) (role : Role) : Option Frame × Inbox :=
  if i.stopping then (none, i.clearSlots)
  else
    match i.slot role with
    | none => (none, i)
    | some frame => (some frame, i.withdraw role)

end Inbox

/-! ## Endpoints -/

/-- The end of a session that a producer holds, as it is shown for inspection. -/
def endpointText (role : Role) (i : Inbox) : String :=
  let roleText := match role with
    | .primary => "Primary"
    | .secondary => "Secondary"
  "SourceInput \x7b role: " ++ roleText ++ ", stopping: " ++ toString i.stopping ++ " \x7d"

/-- Both ends of a session. -/
def endpointsText (i : Inbox) : String :=
  "InputEndpoints \x7b primary: " ++ endpointText .primary i ++ ", secondary: " ++
    endpointText .secondary i ++ " \x7d"

end PictureInPicture
