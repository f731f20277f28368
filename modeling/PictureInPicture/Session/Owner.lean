-- A session and its drawing thread. The owner starts and stops sessions, and the thread
-- does all the work. They talk through a queue of tasks, which producers write to as well.
import PictureInPicture.Session.Loop

namespace PictureInPicture

/-! ## The thread and the queue -/

/-- What comes of asking for a backend. -/
structure Creation (σ : Type) where
  outcome : Outcome σ
  effects : List Effect

/-- A way to make a backend for settings. -/
abbrev Factory (σ : Type) := Config Float32 → Creation σ

/-- A task of the drawing thread. -/
inductive Task (σ : Type) where
  | start (session : Nat) (config : Config Float32) (factory : Factory σ) (clock : Clock)
  | frameReady (role : Role)
  | stop
  | shutdown

/-- The session that the thread draws for. -/
structure Active (σ : Type) where
  session : Nat
  loop : Loop σ

/-- What the thread is doing. -/
inductive Thread (σ : Type) where
  /-- It waits for the next task. -/
  | idle (active : Option (Active σ))
  /-- It was told of a frame of a session that takes frames, and has not looked for it. -/
  | reaching (active : Active σ) (role : Role)
  /-- It is inside the upload of a frame. -/
  | uploading (active : Active σ) (role : Role) (frame : Frame)
  /-- A fault has ended the session, and its slots have not been emptied. -/
  | failing (active : Active σ) (fault : Fault)
  /-- It has ended, and nobody reads the queue. -/
  | gone

/-- All there is: the shared states of the sessions in the order in which they were asked
for, the queue, the thread, the faults that nobody has taken, the session that the owner
takes for running, and the answer to the last start. -/
structure World (σ : Type) where
  inboxes : List Inbox
  queue : List (Task σ)
  thread : Thread σ
  faults : List Fault
  running : Option Nat
  answer : Option (Except Fault Unit)

namespace World

variable {σ : Type}

/-- A thread without a session. -/
def new (σ : Type) : World σ := ⟨[], [], .idle none, [], none, none⟩

/-- A new thread and a new queue, after the old thread was ended. The sessions of the old
one are stopping, so nobody writes to the old queue. -/
def renew (w : World σ) : World σ := { new σ with inboxes := w.inboxes }

def inbox? (w : World σ) (session : Nat) : Option Inbox := w.inboxes[session]?

def setInbox (w : World σ) (session : Nat) (i : Inbox) : World σ :=
  { w with inboxes := w.inboxes.set session i }

def modifyInbox (w : World σ) (session : Nat) (f : Inbox → Inbox) : World σ :=
  { w with inboxes := w.inboxes.modify session f }

/-- The session takes no more frames. -/
def isStopping (w : World σ) (session : Nat) : Bool := (w.inbox? session).any (·.stopping)

/-- The frame that waits in a slot of a session. -/
def slot? (w : World σ) (session : Nat) (role : Role) : Option Frame :=
  (w.inbox? session).bind (·.slot role)

/-- Somebody reads the queue. -/
def listening (w : World σ) : Bool :=
  match w.thread with
  | .gone => false
  | _ => true

/-- Adds a task, if somebody reads the queue. -/
def post (w : World σ) (task : Task σ) : World σ :=
  if w.listening then { w with queue := w.queue ++ [task] } else w

/-! ## The work of the thread -/

/-- The thread has crashed. Its backend is given up, and the queue is gone with it. -/
def crash (w : World σ) (active : Option (Active σ)) : World σ × List Event :=
  ({ w with thread := .gone, queue := [] }, if active.isSome then [.drop] else [])

/-- The start of a session: the backend is made. -/
def startTask (w : World σ) (session : Nat) (config : Config Float32) (factory : Factory σ)
    (clock : Clock) : World σ × List Event :=
  let creation := factory config
  let events := .create config.output :: creation.effects.map .effect
  match creation.outcome with
  | .done backend =>
    let active : Active σ := ⟨session, .ofConfig config clock backend⟩
    ({ w with thread := .idle (some active), answer := some (.ok ()) },
      events ++
        [.notice (.sessionStarted (config.sources.map (·.size)) config.output
          config.layout.background config.startup)])
  | .failed fault => ({ w with answer := some (.error fault) }, events)
  | .crashed _ =>
    let (w, dropped) := w.crash none
    (w, events ++ dropped)

/-- A frame waits, as the thread is told. A session that is stopping keeps none, and of
another one the frame is looked for. -/
def heed (w : World σ) (active : Active σ) (role : Role) : World σ :=
  if w.isStopping active.session then w.modifyInbox active.session .clearSlots
  else { w with thread := .reaching active role }

/-- The frame that waits is picked up, and its upload begins. It may be gone by now. -/
def reach (w : World σ) (active : Active σ) (role : Role) : World σ × List Event :=
  match w.slot? active.session role with
  | none => ({ w with thread := .idle (some active) }, [])
  | some frame =>
    ({ w.modifyInbox active.session (·.withdraw role) with
        thread := .uploading active role frame },
      [.call (.upload role frame)])

/-- The end of an upload, with the drawing that follows. After a fault the session takes no
more frames. -/
def finishUpload (b : Backend σ) (w : World σ) (active : Active σ) (role : Role)
    (frame : Frame) : World σ × List Event :=
  match w.inbox? active.session with
  | none => ({ w with thread := .idle (some active) }, [])
  | some inbox =>
    let turn := active.loop.process b inbox role frame
    let active := { active with loop := turn.loop }
    let w := { w.setInbox active.session turn.inbox with thread := .idle (some active) }
    match turn.outcome with
    | .done _ => (w, turn.events)
    | .failed fault =>
      ({ w.modifyInbox active.session .requestStop with thread := .failing active fault },
        turn.events ++ [.notice (.sessionFaulted role fault)])
    | .crashed _ =>
      let (w, dropped) := w.crash (some active)
      (w, turn.events ++ dropped)

/-- After a fault nothing waits any more, and the fault is reported. -/
def reportFault (w : World σ) (active : Active σ) (fault : Fault) : World σ :=
  { w.modifyInbox active.session .clearSlots with
    thread := .idle (some active)
    faults := w.faults ++ [fault] }

/-- The end of a session on its thread: nothing waits any more, and the backend is given
up. -/
def stopTask (w : World σ) (active : Option (Active σ)) : World σ × List Event :=
  match active with
  | none => (w, [])
  | some active =>
    let w := { w.modifyInbox active.session Inbox.clearSlots with thread := .idle none }
    match w.inbox? active.session with
    | none => (w, [.drop])
    | some inbox =>
      (w, [.drop,
        .notice (.sessionStopped inbox.rendered (inbox.inlets.map (·.stats.uploaded)))])

/-- The thread takes a task out of the queue. -/
def dequeue (w : World σ) : World σ × List Event :=
  match w.thread, w.queue with
  | .idle active, task :: queue =>
    let w := { w with queue }
    match task, active with
    | .start session config factory clock, _ => w.startTask session config factory clock
    | .frameReady role, some active => (w.heed active role, [])
    | .frameReady _, none => (w, [])
    | .stop, active => w.stopTask active
    | .shutdown, active =>
      ({ w with thread := .gone, queue := [] },
        (if active.isSome then [.drop] else []) ++ [.notice .threadExiting])
  | _, _ => (w, [])

/-- The next thing that the thread does. Between two of them owner and producers may do
anything. -/
def work (b : Backend σ) (w : World σ) : World σ × List Event :=
  match w.thread with
  | .idle _ => w.dequeue
  | .reaching active role => w.reach active role
  | .uploading active role frame => w.finishUpload b active role frame
  | .failing active fault => (w.reportFault active fault, [])
  | .gone => (w, [])

/-- The thread takes the next task, up to the upload of its frame. -/
def takeTask (w : World σ) : World σ × List Event :=
  let (w, events) := w.dequeue
  match w.thread with
  | .reaching active role =>
    let (w, more) := w.reach active role
    (w, events ++ more)
  | _ => (w, events)

/-- The upload that the thread is inside comes to its end. -/
def resume (b : Backend σ) (w : World σ) : World σ × List Event :=
  match w.thread with
  | .uploading active role frame =>
    let (w, events) := w.finishUpload b active role frame
    match w.thread with
    | .failing active fault => (w.reportFault active fault, events)
    | _ => (w, events)
  | _ => (w, [])

/-- The next task from its beginning to its end. -/
def runTask (b : Backend σ) (w : World σ) : World σ × List Event :=
  let (w, begun) := w.takeTask
  let (w, ended) := w.resume b
  (w, begun ++ ended)

/-- So many tasks. -/
def runTasks (b : Backend σ) : Nat → World σ → World σ × List Event
  | 0, w => (w, [])
  | n + 1, w =>
    let (w, events) := w.runTask b
    let (w, more) := runTasks b n w
    (w, events ++ more)

/-- The thread works until nothing is left to do. No task adds another one. -/
def settle (b : Backend σ) (w : World σ) : World σ × List Event :=
  let (w, events) := w.resume b
  let (w, more) := runTasks b w.queue.length w
  (w, events ++ more)

/-- The thread takes tasks until it is inside an upload, or out of tasks. -/
def settleHeld : Nat → World σ → World σ × List Event
  | 0, w => (w, [])
  | n + 1, w =>
    match w.thread with
    | .idle _ =>
      let (w, events) := w.takeTask
      let (w, more) := settleHeld n w
      (w, events ++ more)
    | _ => (w, [])

/-- The thread works until it is inside the next upload. -/
def settleToUpload (w : World σ) : World σ × List Event := w.settleHeld w.queue.length

/-! ## The calls of the owner -/

/-- The fault of a thread that has ended before a start. -/
def notRunning : Fault := .initialization .thread "GPU thread is not running"

/-- The fault of a thread that ends during a start. -/
def startLost : Fault :=
  .initialization .thread
    "GPU thread failed to initialise: receiving on an empty and disconnected channel"

/-- Starts a session and waits for its thread. -/
def start (b : Backend σ) (w : World σ) (config : Config Float32) (factory : Factory σ)
    (clock : Clock) : World σ × Except Fault Nat × List Event :=
  if w.running.isSome then (w, .error .alreadyStarted, [])
  else
    match config.validate with
    | .error fault => (w, .error (.config (.invalid fault)), [])
    | .ok () =>
      let session := w.inboxes.length
      let w := { w with inboxes := w.inboxes ++ [.ofConfig config], answer := none }
      if !w.listening then (w, .error notRunning, [])
      else
        let (w, events) := (w.post (.start session config factory clock)).settle b
        match w.answer with
        | none => (w, .error startLost, events)
        | some (.error fault) => (w, .error fault, events)
        | some (.ok ()) => ({ w with running := some session }, .ok session, events)

/-- Stops the running session, if there is one, and waits for its thread. Frames that
producers hand in from now on are left out. -/
def stop (b : Backend σ) (w : World σ) : World σ × List Event :=
  match w.running with
  | none => (w, [])
  | some session =>
    let w := { w.modifyInbox session .requestStop with running := none }
    (w.post .stop).settle b

/-- Gives up the owner: the session is stopped, the thread is ended, and the faults that
nobody has taken are lost. -/
def close (b : Backend σ) (w : World σ) : World σ × List Event :=
  let (w, events) := w.stop b
  let (w, more) := (w.post .shutdown).settle b
  ({ w with faults := [] }, events ++ more)

/-- The counters of the running session. -/
def stats? (w : World σ) : Option Stats :=
  w.running.bind fun session => (w.inbox? session).map (·.stats)

/-- Takes the faults that were reported. -/
def takeFaults (w : World σ) : List Fault × World σ := (w.faults, { w with faults := [] })

/-! ## The calls of the producers -/

/-- Hands a frame to the endpoint of a session. -/
def submit (w : World σ) (session : Nat) (role : Role) (frame : Frame) :
    World σ × Except BufferFault Submission :=
  match w.inbox? session with
  | none => (w, .ok .ignored)
  | some inbox =>
    let submitted := inbox.submit role frame w.listening id
    let w := w.setInbox session submitted.inbox
    (if submitted.posted then w.post (.frameReady role) else w, submitted.result)

end World

end PictureInPicture
