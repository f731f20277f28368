-- The courses that things can take. Owner, producers and drawing thread do one thing at a
-- time in any order: a submission is cut wherever it touches what others can see, and so are
-- the calls of the owner and the work of the thread. A call of `World` is the course in which
-- nobody comes in between.
import PictureInPicture.Session.Owner

namespace PictureInPicture

/-! ## Submissions on their way -/

/-- What a submission has to do next. -/
inductive Errand.Stage where
  /-- The frame is to be checked. -/
  | checking
  /-- The frame is to be put into its slot. -/
  | parking
  /-- The frame is in its slot, and the stop flag is to be looked at again. -/
  | confirming (displaced : Bool)
  /-- The thread is to be told, or the frame that was displaced is to be counted. -/
  | telling (displaced : Bool)
  /-- The slot is to be emptied, for nobody will look into it. -/
  | withdrawing
  | done (result : Except BufferFault Submission)

/-- A submission to the endpoint of a session. -/
structure Errand where
  session : Nat
  role : Role
  frame : Frame
  stage : Errand.Stage

/-- What can be told of a course afterwards. -/
inductive Happening where
  /-- Something happened on the thread, in its work for a session. -/
  | worked (session : Option Nat) (event : Event)
  /-- A submission to a session has put its frame into the slot. -/
  | parked (session : Nat) (role : Role) (frame : Frame)
  | answered (session : Nat) (role : Role) (frame : Frame)
      (result : Except BufferFault Submission)
  /-- A start has returned. -/
  | started (session : Nat)
  | refused (fault : Fault)
  /-- The stop of a session has returned. -/
  | stopped (session : Nat)

namespace Errand

/-- The next thing that a submission does to its session, and whether it tells the thread. -/
def next (e : Errand) (i : Inbox) (listening : Bool) : Inbox × Stage × Bool :=
  match e.stage with
  | .checking =>
    match i.inspect e.role e.frame with
    | (i, .ok ()) => (i, .parking, false)
    | (i, .error fault) => (i, .done (.error fault), false)
  | .parking => (i.park e.role e.frame, .confirming (i.slot e.role).isSome, false)
  | .confirming displaced => (i, if i.stopping then .withdrawing else .telling displaced, false)
  | .telling true => (i.countDropped e.role, .done (.ok .replaced), false)
  | .telling false => (i, if listening then .done (.ok .queued) else .withdrawing, listening)
  | .withdrawing => (i.withdraw e.role, .done (.ok .ignored), false)
  | .done result => (i, .done result, false)

/-- What can be told of a step to another stage. -/
def tale (e : Errand) (stage : Stage) : List Happening :=
  match e.stage, stage with
  | .done _, _ => []
  | .parking, _ => [.parked e.session e.role e.frame]
  | _, .done result => [.answered e.session e.role e.frame result]
  | _, _ => []

end Errand

/-! ## The course -/

/-- What the owner is in the middle of. -/
inductive Duty where
  | free
  /-- It waits for the answer to a start. -/
  | starting (session : Nat)
  /-- The flag of the session is raised, and the thread is to be told. -/
  | raised (session : Nat) (leaving : Bool)
  /-- It waits for the end of the session. -/
  | stopping (session : Nat) (leaving : Bool)
  /-- The thread is to be ended. -/
  | leaving
  /-- It waits for the end of the thread. -/
  | joining
  | left
  deriving DecidableEq, Repr

/-- What a session was asked for with. -/
structure Terms (σ : Type) where
  config : Config Float32
  factory : Factory σ
  clock : Clock

/-- Where things have come to. What nobody can look at is only kept for the telling: the terms
of each session, who told the thread of the frames that it has not heeded, and what happened. -/
structure Course (σ : Type) where
  world : World σ
  duty : Duty
  /-- The sessions whose endpoints were handed out. -/
  endpoints : List Nat
  errands : List Errand
  terms : List (Terms σ)
  told : List (Nat × Role)
  story : List Happening

/-- One thing that may happen next. -/
inductive Act (σ : Type) where
  /-- A submission begins. -/
  | approach (session : Nat) (role : Role) (frame : Frame)
  /-- A submission goes on. -/
  | advance (errand : Nat)
  /-- The thread goes on. -/
  | work
  | start (config : Config Float32) (factory : Factory σ) (clock : Clock)
  | stop
  /-- The owner is given up. -/
  | leave
  /-- The owner goes on with its call. -/
  | proceed

namespace Task

variable {σ : Type}

/-- The source that the thread is told of. -/
def role? : Task σ → Option Role
  | frameReady role => some role
  | _ => none

def isStart : Task σ → Bool
  | start .. => true
  | _ => false

def isStop : Task σ → Bool
  | stop => true
  | _ => false

end Task

namespace World

variable {σ : Type}

/-- The session that the thread draws for. -/
def active? (w : World σ) : Option (Active σ) :=
  match w.thread with
  | .idle active => active
  | .reaching active _ => some active
  | .uploading active _ _ => some active
  | .failing active _ => some active
  | .gone => none

/-- The number of the session that the thread draws for. -/
def session? (w : World σ) : Option Nat := w.active?.map (·.session)

/-- The session that the next thing on the thread is about. -/
def focus (w : World σ) : Option Nat :=
  match w.thread, w.queue with
  | .idle none, .start session .. :: _ => some session
  | _, _ => w.session?

/-- The next thing on the thread is to heed that a frame waits. -/
def isToldNext (w : World σ) : Bool :=
  match w.thread, w.queue with
  | .idle _, .frameReady _ :: _ => true
  | _, _ => false

end World

namespace Course

variable {σ : Type}

/-- A thread without a session, and nobody has done anything. -/
def new (σ : Type) : Course σ := ⟨.new σ, .free, [], [], [], [], []⟩

/-- A submission begins: the stop flag is looked at. Only a session whose endpoints were
handed out has submissions. -/
def approach (c : Course σ) (session : Nat) (role : Role) (frame : Frame) : Course σ :=
  if session ∈ c.endpoints then
    if c.world.isStopping session then
      { c with
        errands := c.errands ++ [⟨session, role, frame, .done (.ok .ignored)⟩]
        story := c.story ++ [.answered session role frame (.ok .ignored)] }
    else { c with errands := c.errands ++ [⟨session, role, frame, .checking⟩] }
  else c

/-- A submission goes on, unless it is at its end. -/
def advance (c : Course σ) (errand : Nat) : Course σ :=
  match c.errands[errand]? with
  | none => c
  | some e =>
    match c.world.inbox? e.session with
    | none => c
    | some inbox =>
      let (inbox, stage, tells) := e.next inbox c.world.listening
      let w := c.world.setInbox e.session inbox
      { c with
        world := if tells then w.post (.frameReady e.role) else w
        errands := c.errands.set errand { e with stage }
        told := if tells then c.told ++ [(e.session, e.role)] else c.told
        story := c.story ++ e.tale stage }

/-- The thread goes on. -/
def work (b : Backend σ) (c : Course σ) : Course σ :=
  let (world, events) := c.world.work b
  { c with
    world
    told :=
      if world.listening then if c.world.isToldNext then c.told.tail else c.told else []
    story := c.story ++ events.map (.worked c.world.focus) }

/-- The owner asks for a session, unless one is running or the settings are refused. -/
def start (c : Course σ) (config : Config Float32) (factory : Factory σ) (clock : Clock) :
    Course σ :=
  if c.duty ≠ .free then c
  else if c.world.running.isSome then { c with story := c.story ++ [.refused .alreadyStarted] }
  else
    match config.validate with
    | .error fault => { c with story := c.story ++ [.refused (.config (.invalid fault))] }
    | .ok () =>
      let session := c.world.inboxes.length
      let w : World σ :=
        { c.world with inboxes := c.world.inboxes ++ [.ofConfig config], answer := none }
      let c : Course σ := { c with terms := c.terms ++ [⟨config, factory, clock⟩] }
      if w.listening then
        { c with world := w.post (.start session config factory clock), duty := .starting session }
      else { c with world := w, story := c.story ++ [.refused World.notRunning] }

/-- The owner raises the flag of the running session. Without one there is nothing to stop. -/
def raise (c : Course σ) (leaving : Bool) (otherwise : Duty) : Course σ :=
  match c.world.running with
  | none => { c with duty := otherwise }
  | some session =>
    { c with
      world := { c.world.modifyInbox session .requestStop with running := none }
      duty := .raised session leaving }

def stop (c : Course σ) : Course σ := if c.duty = .free then c.raise false .free else c

def leave (c : Course σ) : Course σ := if c.duty = .free then c.raise true .leaving else c

/-- The answer to a start is in, or nobody is left to give one. -/
def settleStart (c : Course σ) (session : Nat) : Course σ :=
  match c.world.answer with
  | none => { c with duty := .free, story := c.story ++ [.refused World.startLost] }
  | some (.error fault) => { c with duty := .free, story := c.story ++ [.refused fault] }
  | some (.ok ()) =>
    { c with
      world := { c.world with running := some session }
      duty := .free
      endpoints := c.endpoints ++ [session]
      story := c.story ++ [.started session] }

/-- The owner goes on, unless it has to wait for the thread. -/
def proceed (c : Course σ) : Course σ :=
  match c.duty with
  | .free => c
  | .starting session =>
    if c.world.queue.any Task.isStart then c else c.settleStart session
  | .raised session leaving =>
    { c with world := c.world.post .stop, duty := .stopping session leaving }
  | .stopping session leaving =>
    if c.world.queue.any Task.isStop then c
    else
      { c with
        duty := if leaving then .leaving else .free
        story := c.story ++ [.stopped session] }
  | .leaving => { c with world := c.world.post .shutdown, duty := .joining }
  | .joining =>
    if c.world.listening then c
    else { c with world := { c.world with faults := [] }, duty := .left }
  | .left => c

/-- One thing happens. What cannot happen now leaves everything as it was. -/
def step (b : Backend σ) (c : Course σ) : Act σ → Course σ
  | .approach session role frame => c.approach session role frame
  | .advance errand => c.advance errand
  | .work => c.work b
  | .start config factory clock => c.start config factory clock
  | .stop => c.stop
  | .leave => c.leave
  | .proceed => c.proceed

/-- The course of so many things. -/
def run (b : Backend σ) (acts : List (Act σ)) : Course σ := acts.foldl (step b) (new σ)

theorem run_append (b : Backend σ) (acts : List (Act σ)) (act : Act σ) :
    run b (acts ++ [act]) = (run b acts).step b act := by
  unfold run
  rw [List.foldl_append]
  rfl

end Course

end PictureInPicture
