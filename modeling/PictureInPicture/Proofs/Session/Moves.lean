-- What a single step of a course can do, said once. Everything that is proved of courses goes
-- through the two lists of cases here: `World.Works` for the thread and `Course.Moves` for
-- everybody.
import Mathlib.Data.List.Induction
import PictureInPicture.Proofs.Session.Course

namespace PictureInPicture

namespace World

variable {σ : Type} {w : World σ}

/-! ## Looking at a world -/

section

variable (w : World σ) (n : Nat) (f : Inbox → Inbox)

@[simp] theorem length_modifyInbox : (w.modifyInbox n f).inboxes.length = w.inboxes.length := by
  simp [modifyInbox]

@[simp] theorem queue_modifyInbox : (w.modifyInbox n f).queue = w.queue := rfl

@[simp] theorem thread_modifyInbox : (w.modifyInbox n f).thread = w.thread := rfl

@[simp] theorem faults_modifyInbox : (w.modifyInbox n f).faults = w.faults := rfl

@[simp] theorem running_modifyInbox : (w.modifyInbox n f).running = w.running := rfl

@[simp] theorem session?_modifyInbox : (w.modifyInbox n f).session? = w.session? := rfl

@[simp] theorem listening_modifyInbox : (w.modifyInbox n f).listening = w.listening := rfl

@[simp] theorem modifyInbox_id : w.modifyInbox n id = w := by
  simp [modifyInbox]

end

/-- What the thread is at says whom it draws for. -/
theorem session?_of_thread {w' : World σ} (h : w'.thread = w.thread) : w'.session? = w.session? := by
  unfold session? active?
  rw [h]

theorem listening_of_thread {w' : World σ} (h : w'.thread = w.thread) :
    w'.listening = w.listening := by
  unfold listening
  rw [h]

theorem inbox?_modifyInbox (w : World σ) (n m : Nat) (f : Inbox → Inbox) :
    (w.modifyInbox n f).inbox? m = if n = m then (w.inbox? m).map f else w.inbox? m := by
  unfold inbox? modifyInbox
  rw [List.getElem?_modify]
  split <;> simp

/-- What is asked of a session does not change with what leaves it as it was. -/
theorem map_inbox?_modifyInbox {β : Type} {g : Inbox → β} {f : Inbox → Inbox} {n m : Nat}
    (hf : ∀ i, n = m → w.inbox? m = some i → g (f i) = g i) :
    ((w.modifyInbox n f).inbox? m).map g = (w.inbox? m).map g := by
  rw [inbox?_modifyInbox]
  split
  · rename_i hnm
    cases hi : w.inbox? m with
    | none => rfl
    | some i => simp [hf i hnm hi]
  · rfl

theorem setInbox_eq_modifyInbox {n : Nat} {i : Inbox} (f : Inbox → Inbox)
    (h : w.inbox? n = some i) : w.setInbox n (f i) = w.modifyInbox n f := by
  unfold setInbox modifyInbox
  congr 1
  apply List.ext_getElem?
  intro m
  rw [List.getElem?_modify, List.getElem?_set]
  unfold inbox? at h
  by_cases hm : n = m
  · subst hm
    obtain ⟨hlt, hi⟩ := List.getElem?_eq_some_iff.mp h
    simp [hlt, hi]
  · simp [hm]

theorem setInbox_self {n : Nat} {i : Inbox} (h : w.inbox? n = some i) : w.setInbox n i = w := by
  have hid := setInbox_eq_modifyInbox id h
  rw [modifyInbox_id] at hid
  exact hid

theorem isStopping_eq {n : Nat} {i : Inbox} (h : w.inbox? n = some i) :
    w.isStopping n = i.stopping := by
  simp [isStopping, h]

theorem slot?_eq {n : Nat} {i : Inbox} (h : w.inbox? n = some i) (r : Role) :
    w.slot? n r = i.slot r := by
  simp [slot?, h]

/-- The flag of a session does not change with what leaves the flag as it was. -/
theorem isStopping_modifyInbox {f : Inbox → Inbox} (h : ∀ i, (f i).stopping = i.stopping)
    (n m : Nat) : (w.modifyInbox n f).isStopping m = w.isStopping m := by
  unfold isStopping
  rw [inbox?_modifyInbox]
  split
  · cases w.inbox? m <;> simp [h]
  · rfl

theorem isStopping_requestStop (n m : Nat) :
    (w.modifyInbox n .requestStop).isStopping m =
      (w.isStopping m || (n = m && (w.inbox? m).isSome)) := by
  unfold isStopping
  rw [inbox?_modifyInbox]
  split
  · rename_i h
    cases w.inbox? m <;> simp [h]
  · rename_i h
    simp [h]

theorem slot?_modifyInbox (f : Inbox → Inbox) (n m : Nat) (r : Role) :
    (w.modifyInbox n f).slot? m r =
      if n = m then (w.inbox? m).bind (fun i => (f i).slot r) else w.slot? m r := by
  unfold slot?
  rw [inbox?_modifyInbox]
  split
  · cases w.inbox? m <;> simp
  · rfl

/-- The slots of a session do not change with what leaves them as they were. -/
theorem slot?_modifyInbox_of_slot {f : Inbox → Inbox} (h : ∀ i r, (f i).slot r = i.slot r)
    (n m : Nat) (r : Role) : (w.modifyInbox n f).slot? m r = w.slot? m r := by
  rw [slot?_modifyInbox]
  split
  · simp [slot?, h]
  · rfl

/-! ## What the thread can do -/

/-- One step of the thread, with the world after it and what happened. -/
inductive Works (b : Backend σ) (w : World σ) : World σ → List Event → Prop where
  | rest (h : w.thread = .gone ∨ w.queue = []) : Works b w w []
  | serve (effects : List Effect) {active queue session config factory clock backend}
      (ht : w.thread = .idle active)
      (hq : w.queue = .start session config factory clock :: queue)
      (hm : (factory config).outcome = .done backend)
      (he : ∃ notices : List Notice, effects = (factory config).effects ++ notices.map .notice) :
      Works b w
        { w with
          queue
          thread := .idle (some ⟨session, .ofConfig config clock backend⟩)
          answer := some (.ok ()) }
        (.create config.output :: effects.map .effect)
  | decline (effects : List Effect) {active queue session config factory clock fault}
      (ht : w.thread = .idle active)
      (hq : w.queue = .start session config factory clock :: queue)
      (hm : (factory config).outcome = .failed fault)
      (he : ∃ notices : List Notice, effects = (factory config).effects ++ notices.map .notice) :
      Works b w { w with queue, answer := some (.error fault) }
        (.create config.output :: effects.map .effect)
  | collapse (effects : List Effect) {active queue session config factory clock crash}
      (ht : w.thread = .idle active)
      (hq : w.queue = .start session config factory clock :: queue)
      (hm : (factory config).outcome = .crashed crash)
      (he : ∃ notices : List Notice, effects = (factory config).effects ++ notices.map .notice) :
      Works b w { w with queue := [], thread := .gone }
        (.create config.output :: effects.map .effect)
  | ignore {queue role} (ht : w.thread = .idle none) (hq : w.queue = .frameReady role :: queue) :
      Works b w { w with queue } []
  | discard {active queue role} (ht : w.thread = .idle (some active))
      (hq : w.queue = .frameReady role :: queue) (hs : w.isStopping active.session = true) :
      Works b w { w.modifyInbox active.session .clearSlots with queue } []
  | heed {active queue role} (ht : w.thread = .idle (some active))
      (hq : w.queue = .frameReady role :: queue) (hs : w.isStopping active.session = false) :
      Works b w { w with queue, thread := .reaching active role } []
  | halt {queue} (ht : w.thread = .idle none) (hq : w.queue = .stop :: queue) :
      Works b w { w with queue } []
  | release (notices : List Notice) {active queue} (ht : w.thread = .idle (some active))
      (hq : w.queue = .stop :: queue) :
      Works b w { w.modifyInbox active.session .clearSlots with queue, thread := .idle none }
        (.drop :: notices.map .notice)
  | shutdown {active queue} (ht : w.thread = .idle active) (hq : w.queue = .shutdown :: queue) :
      Works b w { w with queue := [], thread := .gone }
        ((if active.isSome then [.drop] else []) ++ [.notice .threadExiting])
  | miss {active role} (ht : w.thread = .reaching active role)
      (hs : w.slot? active.session role = none) :
      Works b w { w with thread := .idle (some active) } []
  | reach {active role frame} (ht : w.thread = .reaching active role)
      (hs : w.slot? active.session role = some frame) :
      Works b w
        { w.modifyInbox active.session (·.withdraw role) with
          thread := .uploading active role frame }
        [.call (.upload role frame)]
  | lose {active role frame} (ht : w.thread = .uploading active role frame)
      (hi : w.inbox? active.session = none) :
      Works b w { w with thread := .idle (some active) } []
  | finish {active role frame inbox attempt} (ht : w.thread = .uploading active role frame)
      (hi : w.inbox? active.session = some inbox)
      (ho : (active.loop.process b inbox role frame).outcome = .done attempt) :
      Works b w
        { w.modifyInbox active.session fun _ => (active.loop.process b inbox role frame).inbox with
          thread :=
            .idle (some { active with loop := (active.loop.process b inbox role frame).loop }) }
        (active.loop.process b inbox role frame).events
  | fail {active role frame inbox fault} (ht : w.thread = .uploading active role frame)
      (hi : w.inbox? active.session = some inbox)
      (ho : (active.loop.process b inbox role frame).outcome = .failed fault) :
      Works b w
        { w.modifyInbox active.session fun _ =>
            (active.loop.process b inbox role frame).inbox.requestStop with
          thread :=
            .failing { active with loop := (active.loop.process b inbox role frame).loop } fault }
        ((active.loop.process b inbox role frame).events ++
          [.notice (.sessionFaulted role fault)])
  | crash {active role frame inbox crash} (ht : w.thread = .uploading active role frame)
      (hi : w.inbox? active.session = some inbox)
      (ho : (active.loop.process b inbox role frame).outcome = .crashed crash) :
      Works b w
        { w.modifyInbox active.session fun _ => (active.loop.process b inbox role frame).inbox with
          thread := .gone
          queue := [] }
        ((active.loop.process b inbox role frame).events ++ [.drop])
  | report {active fault} (ht : w.thread = .failing active fault) :
      Works b w (w.reportFault active fault) []

theorem startTask_works {b : Backend σ} {active queue session config factory clock}
    (ht : w.thread = .idle active) (hq : w.queue = .start session config factory clock :: queue) :
    Works b w ({ w with queue }.startTask session config factory clock).1
      ({ w with queue }.startTask session config factory clock).2 := by
  cases hm : (factory config).outcome with
  | done backend =>
    simp only [startTask, hm]
    have happen := Works.serve (b := b) ((factory config).effects ++
      [.notice (.sessionStarted (config.sources.map (·.size)) config.output
        config.layout.background config.startup)]) ht hq hm ⟨[_], rfl⟩
    rw [List.map_append] at happen
    exact happen
  | failed fault =>
    simp only [startTask, hm]
    exact .decline _ ht hq hm ⟨[], (List.append_nil _).symm⟩
  | crashed crash =>
    simp only [startTask, hm, World.crash]
    have happen := Works.collapse (b := b) (factory config).effects ht hq hm
      ⟨[], (List.append_nil _).symm⟩
    simpa using happen

theorem stopTask_works {b : Backend σ} {active queue} (ht : w.thread = .idle active)
    (hq : w.queue = .stop :: queue) :
    Works b w ({ w with queue }.stopTask active).1 ({ w with queue }.stopTask active).2 := by
  cases active with
  | none => exact .halt ht hq
  | some active =>
    simp only [stopTask]
    split
    · exact .release [] ht hq
    · exact .release [_] ht hq

theorem finishUpload_works {b : Backend σ} {active role frame}
    (ht : w.thread = .uploading active role frame) :
    Works b w (w.finishUpload b active role frame).1 (w.finishUpload b active role frame).2 := by
  cases hi : w.inbox? active.session with
  | none =>
    simp only [finishUpload, hi]
    exact .lose ht hi
  | some inbox =>
    simp only [finishUpload, hi,
      setInbox_eq_modifyInbox (fun _ => (active.loop.process b inbox role frame).inbox) hi]
    cases ho : (active.loop.process b inbox role frame).outcome with
    | done attempt => exact .finish ht hi ho
    | crashed crash => exact .crash ht hi ho
    | failed fault =>
      have happen := Works.fail ht hi ho
      simp only [modifyInbox, List.modify_modify_eq] at happen ⊢
      exact happen

/-- Every step of the thread is one of the cases. -/
theorem work_works (b : Backend σ) (w : World σ) : Works b w (w.work b).1 (w.work b).2 := by
  obtain ⟨inboxes, queue, thread, faults, running, answer⟩ := w
  cases thread with
  | gone => exact .rest (.inl rfl)
  | failing active fault => exact .report rfl
  | uploading active role frame => exact finishUpload_works rfl
  | reaching active role =>
    simp only [work, World.reach]
    split
    · rename_i hs
      exact .miss rfl hs
    · rename_i frame hs
      exact .reach rfl hs
  | idle active =>
    cases queue with
    | nil => exact .rest (.inr rfl)
    | cons task queue =>
      cases task with
      | start session config factory clock => exact startTask_works rfl rfl
      | stop => exact stopTask_works rfl rfl
      | shutdown => exact .shutdown rfl rfl
      | frameReady role =>
        cases active with
        | none => exact .ignore rfl rfl
        | some active =>
          simp only [work, dequeue, World.heed]
          split
          · rename_i hs
            exact .discard rfl rfl hs
          · rename_i hs
            exact .heed rfl rfl (Bool.eq_false_iff.mpr hs)

/-! ## Telling the thread -/

theorem post_of_listening {task : Task σ} (h : w.listening = true) :
    w.post task = { w with queue := w.queue ++ [task] } := by
  simp [post, h]

theorem post_of_gone {task : Task σ} (h : w.listening = false) : w.post task = w := by
  simp [post, h]

end World

namespace Course

variable {σ : Type} {b : Backend σ} {c : Course σ}

/-! ## What anybody can do -/

/-- The course with a submission that has come to another stage. -/
def onward (c : Course σ) (k : Nat) (e : Errand) (stage : Errand.Stage) : Course σ :=
  { c with
    errands := c.errands.set k { e with stage }
    story := c.story ++ e.tale stage }

/-- One step of the owner that changes something. -/
inductive Manages (c : Course σ) : Course σ → Prop where
  | refuseStart {fault} (hd : c.duty = .free) :
      Manages c { c with story := c.story ++ [.refused fault] }
  | startUnheard {config factory clock} (hd : c.duty = .free) (hr : c.world.running = none)
      (hv : config.validate = .ok ()) (hl : c.world.listening = false) :
      Manages c
        { c with
          world :=
            { c.world with inboxes := c.world.inboxes ++ [.ofConfig config], answer := none }
          terms := c.terms ++ [⟨config, factory, clock⟩]
          story := c.story ++ [.refused World.notRunning] }
  | start {config factory clock} (hd : c.duty = .free) (hr : c.world.running = none)
      (hv : config.validate = .ok ()) (hl : c.world.listening = true) :
      Manages c
        { c with
          world :=
            { c.world with
              inboxes := c.world.inboxes ++ [.ofConfig config]
              answer := none
              queue :=
                c.world.queue ++ [.start c.world.inboxes.length config factory clock] }
          duty := .starting c.world.inboxes.length
          terms := c.terms ++ [⟨config, factory, clock⟩] }
  | raise {session leaving} (hd : c.duty = .free) (hr : c.world.running = some session) :
      Manages c
        { c with
          world := { c.world.modifyInbox session .requestStop with running := none }
          duty := .raised session leaving }
  | leave (hd : c.duty = .free) (hr : c.world.running = none) :
      Manages c { c with duty := .leaving }
  | loseStart {session} (hd : c.duty = .starting session)
      (hq : c.world.queue.any Task.isStart = false) (ha : c.world.answer = none) :
      Manages c { c with duty := .free, story := c.story ++ [.refused World.startLost] }
  | failStart {session fault} (hd : c.duty = .starting session)
      (hq : c.world.queue.any Task.isStart = false) (ha : c.world.answer = some (.error fault)) :
      Manages c { c with duty := .free, story := c.story ++ [.refused fault] }
  | grant {session} (hd : c.duty = .starting session)
      (hq : c.world.queue.any Task.isStart = false) (ha : c.world.answer = some (.ok ())) :
      Manages c
        { c with
          world := { c.world with running := some session }
          duty := .free
          endpoints := c.endpoints ++ [session]
          story := c.story ++ [.started session] }
  | askStop {session leaving} (hd : c.duty = .raised session leaving) :
      Manages c { c with world := c.world.post .stop, duty := .stopping session leaving }
  | close {session leaving} (hd : c.duty = .stopping session leaving)
      (hq : c.world.queue.any Task.isStop = false) :
      Manages c
        { c with
          duty := if leaving then .leaving else .free
          story := c.story ++ [.stopped session] }
  | askEnd (hd : c.duty = .leaving) :
      Manages c { c with world := c.world.post .shutdown, duty := .joining }
  | depart (hd : c.duty = .joining) (hl : c.world.listening = false) :
      Manages c { c with world := { c.world with faults := [] }, duty := .left }

/-- One step of a course that changes something: a submission, the thread or the owner goes
on. -/
inductive Moves (b : Backend σ) (c : Course σ) : Course σ → Prop where
  | turnAway {session role frame} (hn : session ∈ c.endpoints)
      (hs : c.world.isStopping session = true) :
      Moves b c
        { c with
          errands := c.errands ++ [⟨session, role, frame, .done (.ok .ignored)⟩]
          story := c.story ++ [.answered session role frame (.ok .ignored)] }
  | approach {session role frame} (hn : session ∈ c.endpoints)
      (hs : c.world.isStopping session = false) :
      Moves b c { c with errands := c.errands ++ [⟨session, role, frame, .checking⟩] }
  | accept {k e inbox} (he : c.errands[k]? = some e) (hi : c.world.inbox? e.session = some inbox)
      (hs : e.stage = .checking)
      (hv : e.frame.validateFor e.role (inbox.declared.get e.role) = .ok ()) :
      Moves b c (c.onward k e .parking)
  | refuse {k e inbox fault} (he : c.errands[k]? = some e)
      (hi : c.world.inbox? e.session = some inbox) (hs : e.stage = .checking)
      (hv : e.frame.validateFor e.role (inbox.declared.get e.role) = .error fault) :
      Moves b c
        { c.onward k e (.done (.error fault)) with
          world := c.world.modifyInbox e.session (·.countRejected e.role) }
  | park {k e inbox} (he : c.errands[k]? = some e) (hi : c.world.inbox? e.session = some inbox)
      (hs : e.stage = .parking) :
      Moves b c
        { c.onward k e (.confirming (inbox.slot e.role).isSome) with
          world := c.world.modifyInbox e.session (·.park e.role e.frame) }
  | confirm {k e displaced} (he : c.errands[k]? = some e) (hs : e.stage = .confirming displaced)
      (hf : c.world.isStopping e.session = false) :
      Moves b c (c.onward k e (.telling displaced))
  | overtake {k e displaced} (he : c.errands[k]? = some e) (hs : e.stage = .confirming displaced)
      (hf : c.world.isStopping e.session = true) :
      Moves b c (c.onward k e .withdrawing)
  | replace {k e inbox} (he : c.errands[k]? = some e)
      (hi : c.world.inbox? e.session = some inbox) (hs : e.stage = .telling true) :
      Moves b c
        { c.onward k e (.done (.ok .replaced)) with
          world := c.world.modifyInbox e.session (·.countDropped e.role) }
  | tell {k e} (he : c.errands[k]? = some e) (hs : e.stage = .telling false)
      (hl : c.world.listening = true) :
      Moves b c
        { c.onward k e (.done (.ok .queued)) with
          world := { c.world with queue := c.world.queue ++ [.frameReady e.role] }
          told := c.told ++ [(e.session, e.role)] }
  | unheard {k e} (he : c.errands[k]? = some e) (hs : e.stage = .telling false)
      (hl : c.world.listening = false) :
      Moves b c (c.onward k e .withdrawing)
  | withdraw {k e inbox} (he : c.errands[k]? = some e)
      (hi : c.world.inbox? e.session = some inbox) (hs : e.stage = .withdrawing) :
      Moves b c
        { c.onward k e (.done (.ok .ignored)) with
          world := c.world.modifyInbox e.session (·.withdraw e.role) }
  | work {world events} (h : World.Works b c.world world events) :
      Moves b c
        { c with
          world
          told :=
            if world.listening then if c.world.isToldNext then c.told.tail else c.told else []
          story := c.story ++ events.map (.worked c.world.focus) }
  | owner {c'} (h : Manages c c') : Moves b c c'

theorem approach_moves (session : Nat) (role : Role) (frame : Frame) :
    c.approach session role frame = c ∨ Moves b c (c.approach session role frame) := by
  unfold approach
  split
  · rename_i hn
    split
    · rename_i hs
      exact .inr (.turnAway hn hs)
    · rename_i hs
      exact .inr (.approach hn (Bool.eq_false_iff.mpr hs))
  · exact .inl rfl

/-- A submission at its end does nothing any more. -/
theorem advance_done {k : Nat} {e : Errand} {result : Except BufferFault Submission}
    (he : c.errands[k]? = some e) (hs : e.stage = .done result) : c.advance k = c := by
  unfold advance
  simp only [he]
  split
  · rfl
  · rename_i inbox hi
    have hset : c.errands.set k e = c.errands := by
      obtain ⟨hlt, rfl⟩ := List.getElem?_eq_some_iff.mp he
      exact List.set_getElem_self hlt
    simp only [Errand.next, hs, World.setInbox_self hi, Errand.tale]
    rw [← hs]
    simp [hset]

theorem advance_moves (k : Nat) : c.advance k = c ∨ Moves b c (c.advance k) := by
  unfold advance
  split
  · exact .inl rfl
  rename_i e he
  split
  · exact .inl rfl
  rename_i inbox hi
  cases hs : e.stage with
  | checking =>
    right
    cases hv : e.frame.validateFor e.role (inbox.declared.get e.role) with
    | ok =>
      simp only [Errand.next, hs, Inbox.inspect, hv, World.setInbox_self hi]
      exact .accept he hi hs hv
    | error fault =>
      simp only [Errand.next, hs, Inbox.inspect, hv,
        World.setInbox_eq_modifyInbox (·.countRejected e.role) hi]
      exact .refuse he hi hs hv
  | parking =>
    right
    simp only [Errand.next, hs, World.setInbox_eq_modifyInbox (·.park e.role e.frame) hi]
    exact .park he hi hs
  | confirming displaced =>
    right
    have hf := World.isStopping_eq hi
    simp only [Errand.next, hs, World.setInbox_self hi]
    cases hstop : inbox.stopping with
    | true => exact .overtake he hs (hf.trans hstop)
    | false => exact .confirm he hs (hf.trans hstop)
  | telling displaced =>
    right
    cases displaced with
    | true =>
      simp only [Errand.next, hs, World.setInbox_eq_modifyInbox (·.countDropped e.role) hi]
      exact .replace he hi hs
    | false =>
      simp only [Errand.next, hs, World.setInbox_self hi]
      cases hl : c.world.listening with
      | true =>
        simp only [World.post_of_listening hl]
        exact .tell he hs hl
      | false => exact .unheard he hs hl
  | withdrawing =>
    right
    simp only [Errand.next, hs, World.setInbox_eq_modifyInbox (·.withdraw e.role) hi]
    exact .withdraw he hi hs
  | done result =>
    left
    have hdone := advance_done he hs
    unfold advance at hdone
    simpa only [he, hi] using hdone

theorem start_manages (config : Config Float32) (factory : Factory σ) (clock : Clock) :
    c.start config factory clock = c ∨ Manages c (c.start config factory clock) := by
  unfold start
  split
  · exact .inl rfl
  rename_i hd
  have hd : c.duty = .free := by simpa using hd
  right
  split
  · exact .refuseStart hd
  rename_i hr
  have hr : c.world.running = none := by simpa using hr
  split
  · exact .refuseStart hd
  rename_i hv
  cases hl : c.world.listening with
  | true =>
    simp only [World.listening] at hl ⊢
    simp only [hl, if_true, World.post, World.listening]
    exact .start hd hr hv hl
  | false =>
    simp only [World.listening] at hl ⊢
    simp only [hl, Bool.false_eq_true, if_false]
    exact .startUnheard hd hr hv hl

theorem proceed_manages : c.proceed = c ∨ Manages c c.proceed := by
  unfold proceed
  split
  · exact .inl rfl
  · rename_i session hd
    split
    · exact .inl rfl
    · rename_i hq
      have hq := Bool.eq_false_iff.mpr hq
      right
      unfold settleStart
      split
      · rename_i ha; exact .loseStart hd hq ha
      · rename_i fault ha; exact .failStart hd hq ha
      · rename_i ha; exact .grant hd hq ha
  · rename_i session leaving hd
    exact .inr (.askStop hd)
  · rename_i session leaving hd
    split
    · exact .inl rfl
    · rename_i hq
      exact .inr (.close hd (Bool.eq_false_iff.mpr hq))
  · rename_i hd
    exact .inr (.askEnd hd)
  · rename_i hd
    split
    · exact .inl rfl
    · rename_i hl
      exact .inr (.depart hd (Bool.eq_false_iff.mpr hl))
  · exact .inl rfl

theorem stop_manages : c.stop = c ∨ Manages c c.stop := by
  unfold stop
  split
  · rename_i hd
    unfold raise
    split
    · left; rw [← hd]
    · rename_i session hr; exact .inr (.raise hd hr)
  · exact .inl rfl

theorem leave_manages : c.leave = c ∨ Manages c c.leave := by
  unfold leave
  split
  · rename_i hd
    unfold raise
    split
    · rename_i hr; exact .inr (.leave hd hr)
    · rename_i session hr; exact .inr (.raise hd hr)
  · exact .inl rfl

/-- Every step of a course is one of the cases, or changes nothing. -/
theorem step_moves (b : Backend σ) (c : Course σ) (act : Act σ) :
    c.step b act = c ∨ Moves b c (c.step b act) := by
  cases act with
  | approach session role frame => exact approach_moves session role frame
  | advance k => exact advance_moves k
  | work => exact .inr (.work (World.work_works b c.world))
  | start config factory clock => exact (start_manages config factory clock).imp_right .owner
  | stop => exact stop_manages.imp_right .owner
  | leave => exact leave_manages.imp_right .owner
  | proceed => exact proceed_manages.imp_right .owner

/-- What holds at the beginning, and after every step from where it holds, holds of every
course. -/
theorem run_induction {P : Course σ → Prop} (b : Backend σ) (acts : List (Act σ))
    (hnew : P (new σ)) (hmoves : ∀ c c', P c → Moves b c c' → P c') : P (run b acts) := by
  induction acts using List.reverseRecOn with
  | nil => exact hnew
  | append_singleton acts act ih =>
    rw [run_append]
    rcases step_moves b (run b acts) act with h | h
    · rw [h]; exact ih
    · exact hmoves _ _ ih h

end Course

end PictureInPicture
