-- The loop that draws. A frame that arrives is uploaded, and then everything that has a
-- picture is drawn, as soon as the startup policy is met.
import PictureInPicture.Backend
import PictureInPicture.Session.Inbox

namespace PictureInPicture

/-! ## The clock -/

/-- A clock that numbers the composites of a session. `times` gives the microseconds at
which it is asked. -/
structure Clock where
  times : Nat → Nat
  next : Nat

namespace Clock

/-- The largest number of a composite. -/
def lastIndex : Nat := 18446744073709551615

def start (times : Nat → Nat) : Clock := ⟨times, 0⟩

/-- A clock that moves on by so many microseconds each time it is asked. -/
def steady (stepMicros : Nat) : Clock := start (· * stepMicros)

/-- The stamp of the next composite. -/
def sample (c : Clock) : Stamp × Clock :=
  (⟨c.times c.next, c.next⟩, { c with next := min (c.next + 1) lastIndex })

/-- The stamps of so many composites. -/
def samples (c : Clock) : Nat → List Stamp
  | 0 => []
  | n + 1 =>
    let (stamp, c) := c.sample
    stamp :: c.samples n

end Clock

/-- No stamp has an earlier time than the one before it. -/
def Stamp.inOrder : List Stamp → Bool
  | first :: second :: rest => first.micros ≤ second.micros && inOrder (second :: rest)
  | _ => true

/-! ## The gate -/

/-- What has a picture, and what must have one before the first composite. -/
structure Gate where
  policy : StartupPolicy
  mandatory : Role
  residency : Residency
  deriving DecidableEq, Repr

namespace Gate

def closed (policy : StartupPolicy) (mandatory : Role) : Gate := ⟨policy, mandatory, .empty⟩

def recordUpload (g : Gate) (role : Role) : Gate :=
  { g with residency := g.residency.mark role }

def isOpen (g : Gate) : Bool :=
  match g.policy with
  | .strict => g.residency.contains g.mandatory
  | .bestEffort => g.residency.any

end Gate

/-! ## The loop -/

/-- What came of a frame that was to be drawn. -/
inductive Attempt where
  /-- The gate held it back. -/
  | withheld
  | rendered (stamp : Stamp)
  /-- The output did not take it. -/
  | skipped
  deriving DecidableEq, Repr

/-- A call on the backend of a session. -/
inductive Call where
  | upload (role : Role) (frame : Frame)
  | render (ops : List (DrawOp Float32)) (stamp : Stamp)

def Call.text : Call → String
  | upload role frame => "upload " ++ role.name ++ " " ++ frame.packing.name
  | render ops stamp =>
    "render " ++ toString ops.length ++ " ops frame " ++ toString stamp.index

/-- What happens on the drawing thread of a session. -/
inductive Event where
  /-- A backend is asked for. -/
  | create (output : Size)
  | call (call : Call)
  | uploaded (role : Role) (outcome : Outcome Unit)
  | rendered (stamp : Stamp) (outcome : Outcome Presentation)
  | effect (effect : Effect)
  /-- The backend is given up. -/
  | drop

namespace Event

def notice (n : Notice) : Event := .effect (.notice n)

def effect? : Event → Option Effect
  | effect e => some e
  | _ => none

/-- The calls on a backend, its making and its end included. -/
def callText? : Event → Option String
  | create output => some ("create " ++ output.text)
  | call c => some c.text
  | drop => some "dropped"
  | _ => none

end Event

/-- Everything that the drawing thread owns for one session. -/
structure Loop (σ : Type) where
  backend : σ
  plan : Plan Float32
  gate : Gate
  clock : Clock
  /-- Counters are reported once in so many frames, and never for 0. -/
  interval : Nat

/-- The state after a step of the loop, how the step ended, and what happened. -/
structure Turn (σ β : Type) where
  loop : Loop σ
  inbox : Inbox
  outcome : Outcome β
  events : List Event

namespace Loop

variable {σ : Type}

def ofConfig (c : Config Float32) (clock : Clock) (backend : σ) : Loop σ where
  backend
  plan := .ofConfig c
  gate := .closed c.startup c.mandatory
  clock
  interval := c.diagnosticsInterval.toNat

/-- The count is one of those that are reported. -/
def reports (l : Loop σ) (count : Nat) : Bool := 0 < l.interval && count % l.interval = 0

/-- After a composite was presented: the freshness of both sources is used up. -/
def presented (l : Loop σ) (inbox : Inbox) (stamp : Stamp) (layers : Nat) :
    Inbox × List Notice :=
  let fresh := inbox.fresh
  let inbox := inbox.clearFresh.countRendered
  let counts :=
    if l.reports inbox.rendered then
      [.renderCounts inbox.rendered inbox.skipped (inbox.inlets.map (·.stats.dropped))]
    else []
  (inbox, .compositePresented stamp fresh layers :: counts)

/-- Draws what has a picture, if the gate is open. -/
def tryRender (b : Backend σ) (l : Loop σ) (inbox : Inbox) : Turn σ Attempt :=
  if !l.gate.isOpen then
    ⟨l, inbox, .done .withheld, [.notice (.renderWithheld l.gate.policy l.gate.mandatory)]⟩
  else
    let ops := l.plan.drawOps l.gate.residency
    let (stamp, clock) := l.clock.sample
    let reply := b.render l.backend ops stamp
    let l := { l with clock, backend := reply.state }
    let events :=
      .call (.render ops stamp) ::
        (reply.effects.map .effect ++ [.rendered stamp reply.outcome])
    match reply.outcome with
    | .done .presented =>
      let (inbox, notices) := l.presented inbox stamp ops.length
      ⟨l, inbox, .done (.rendered stamp), events ++ notices.map .notice⟩
    | .done .skipped =>
      ⟨l, inbox.countSkipped, .done .skipped, events ++ [.notice (.frameDeclined inbox.fresh)]⟩
    | .failed fault => ⟨l, inbox, .failed fault, events⟩
    | .crashed crash => ⟨l, inbox, .crashed crash, events⟩

/-- After an upload: the source has a picture, and it is fresh. -/
def admitUpload (l : Loop σ) (inbox : Inbox) (role : Role) : Loop σ × Inbox × List Notice :=
  let l := { l with gate := l.gate.recordUpload role }
  let inbox := (inbox.markFresh role).countUploaded role
  let count := (inbox.inlets.get role).stats.uploaded
  (l, inbox, if l.reports count then [.framesUploaded role count] else [])

/-- Uploads a frame that was picked up, and draws. A frame that the backend refuses is left
out, and every other fault is handed on. -/
def process (b : Backend σ) (l : Loop σ) (inbox : Inbox) (role : Role) (frame : Frame) :
    Turn σ (Option Attempt) :=
  let reply := b.upload l.backend role frame
  let l := { l with backend := reply.state }
  let events := reply.effects.map .effect ++ [.uploaded role reply.outcome]
  match reply.outcome with
  | .failed fault =>
    if fault.isFatal then ⟨l, inbox, .failed fault, events⟩
    else
      ⟨l, inbox.countRejected role, .done none, events ++ [.notice (.rejectedFrame role fault)]⟩
  | .crashed crash => ⟨l, inbox, .crashed crash, events⟩
  | .done () =>
    let (l, inbox, notices) := l.admitUpload inbox role
    let turn := l.tryRender b inbox
    { loop := turn.loop
      inbox := turn.inbox
      outcome := match turn.outcome with
        | .done attempt => .done (some attempt)
        | .failed fault => .failed fault
        | .crashed crash => .crashed crash
      events := events ++ notices.map .notice ++ turn.events }

/-- Picks up the waiting frame of a source, uploads it and draws. -/
def handleFrame (b : Backend σ) (l : Loop σ) (inbox : Inbox) (role : Role) :
    Turn σ (Option Attempt) :=
  match inbox.receive role with
  | (none, inbox) => ⟨l, inbox, .done none, []⟩
  | (some frame, inbox) =>
    let turn := l.process b inbox role frame
    { turn with events := .call (.upload role frame) :: turn.events }

end Loop

end PictureInPicture
