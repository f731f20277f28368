-- Faults that end a session. A fault is reported once, and from then on nothing happens in the
-- session until it is stopped: no call on its backend, no frame in a slot, and no counter moves.
import PictureInPicture.Proofs.Session.Inert
import PictureInPicture.Proofs.Session.Quiet
import PictureInPicture.Proofs.Session.Rounds

namespace PictureInPicture

variable {σ : Type} {b : Backend σ}

/-! ## Faults and reports -/

/-- The fault of a call that has failed. -/
def Outcome.fault? {β : Type} : Outcome β → Option Fault
  | failed fault => some fault
  | _ => none

namespace Event

/-- The fault that ends the session. A frame that the backend refuses costs only the frame. -/
def fault? : Event → Option Fault
  | uploaded _ (.failed fault) => if fault.isFatal then some fault else none
  | rendered _ (.failed fault) => some fault
  | _ => none

theorem fault?_effects (effects : List Effect) : (effects.map effect).filterMap fault? = [] := by
  simp [List.filterMap_eq_nil_iff, fault?]

theorem fault?_notices (notices : List Notice) : (notices.map notice).filterMap fault? = [] := by
  simp [List.filterMap_eq_nil_iff, fault?, notice]

end Event

namespace Loop

variable {l : Loop σ} {i : Inbox} {role : Role} {frame : Frame}

theorem faults_drawing :
    (l.drawing b).filterMap Event.fault? = (l.nextReply b).outcome.fault?.toList := by
  unfold drawing
  rw [List.filterMap_cons, List.filterMap_append, Event.fault?_effects]
  cases (l.nextReply b).outcome <;> rfl

theorem faults_draws {turn : Turn σ Attempt} (h : Draws b l i turn) :
    turn.events.filterMap Event.fault? = turn.outcome.fault?.toList := by
  cases h with
  | withhold => rfl
  | present _ ho =>
    rw [List.filterMap_append, faults_drawing, Event.fault?_notices, ho]
    rfl
  | skip _ ho =>
    rw [List.filterMap_append, faults_drawing, ho]
    rfl
  | fail _ ho | crash _ ho =>
    rw [faults_drawing, ho]
    rfl

theorem faults_uploading :
    (l.uploading b role frame).filterMap Event.fault? =
      (Event.uploaded role (b.upload l.backend role frame).outcome).fault?.toList := by
  unfold uploading
  rw [List.filterMap_append, Event.fault?_effects, List.nil_append, List.filterMap_cons]
  cases (Event.uploaded role (b.upload l.backend role frame).outcome).fault? <;> rfl

/-- A turn of the loop fails with the one fault that it tells of. -/
theorem faults_processes {turn : Turn σ (Option Attempt)} (h : Processes b l i role frame turn) :
    turn.events.filterMap Event.fault? = turn.outcome.fault?.toList := by
  cases h with
  | fail ho hf =>
    rw [faults_uploading, ho]
    simp [Event.fault?, hf, Outcome.fault?]
  | reject ho hf =>
    rw [List.filterMap_append, faults_uploading, ho]
    simp [Event.fault?, hf, Outcome.fault?, Event.notice]
  | crash ho =>
    rw [faults_uploading, ho]
    rfl
  | @store turn ho _ hd =>
    rw [List.filterMap_append, List.filterMap_append, faults_uploading, Event.fault?_notices, ho,
      faults_draws hd]
    cases turn.outcome <;> rfl

end Loop

/-- The session whose loop has come upon a fault that ends it. -/
def Happening.report? : Happening → Option (Nat × Fault)
  | worked (some session) event => event.fault?.map (session, ·)
  | _ => none

/-- The faults that ended sessions, in their order. -/
def reports (story : List Happening) : List (Nat × Fault) := story.filterMap Happening.report?

theorem reports_append_silent {story new : List Happening}
    (h : ∀ x ∈ new, x.report? = none) : reports (story ++ new) = reports story := by
  unfold reports
  rw [List.filterMap_append, List.filterMap_eq_nil_iff.mpr h, List.append_nil]

theorem reports_append_asides {story new : List Happening} (h : ∀ x ∈ new, x.isAside = true) :
    reports (story ++ new) = reports story := by
  refine reports_append_silent fun x hx => ?_
  have hx := h x hx
  cases x <;> first | rfl | cases hx

theorem reports_append_orders {story new : List Happening} (h : ∀ x ∈ new, x.isOrder = true) :
    reports (story ++ new) = reports story := by
  refine reports_append_silent fun x hx => ?_
  have hx := h x hx
  cases x <;> first | rfl | cases hx

theorem reports_append_quiet {story : List Happening} {events : List Event}
    (h : events.filterMap Event.fault? = []) (session : Option Nat) :
    reports (story ++ events.map (.worked session)) = reports story := by
  refine reports_append_silent fun x hx => ?_
  obtain ⟨e, he, rfl⟩ := List.mem_map.mp hx
  cases session with
  | none => rfl
  | some n =>
    have hnone := List.filterMap_eq_nil_iff.mp h e he
    simp [Happening.report?, hnone]

theorem reports_worked (story : List Happening) (n : Nat) (events : List Event) :
    reports (story ++ events.map (.worked (some n))) =
      reports story ++ (events.filterMap Event.fault?).map (n, ·) := by
  unfold reports
  rw [List.filterMap_append, List.filterMap_map, List.map_filterMap]
  rfl

namespace World

variable {w w' : World σ} {events : List Event} {n : Nat}

/-! ## What the thread is at -/

/-- The session whose frame the thread is at. -/
def busy? (w : World σ) : Option Nat :=
  match w.thread with
  | .reaching active _ => some active.session
  | .uploading active _ _ => some active.session
  | _ => none

/-- The session in whose task the thread has come upon a fault. -/
def failing? (w : World σ) : Option Nat :=
  match w.thread with
  | .failing active _ => some active.session
  | _ => none

/-- The fault that is about to be reported. -/
def pending (w : World σ) : List Fault :=
  match w.thread with
  | .failing _ fault => [fault]
  | _ => []

/-- All counters of a session. -/
def tally (w : World σ) (n : Nat) : Option Stats := (w.inbox? n).map (·.stats)

theorem tally_clearSlots (w : World σ) (m n : Nat) :
    (w.modifyInbox m .clearSlots).tally n = w.tally n :=
  map_inbox?_modifyInbox fun i _ _ => by
    cases i
    rfl

theorem tally_stranger {f : Inbox → Inbox} {m : Nat} (hm : m ≠ n) :
    (w.modifyInbox m f).tally n = w.tally n :=
  map_inbox?_modifyInbox fun _ heq _ => absurd heq hm

/-- The thread counts only for the session whose frame it is at. -/
theorem tally_works (h : Works b w w' events) (hb : w.busy? ≠ some n) :
    w'.tally n = w.tally n := by
  cases h with
  | rest | serve | decline | collapse | ignore | heed | halt | shutdown | miss | lose => rfl
  | discard | release | report => exact tally_clearSlots w _ n
  | reach ht | finish ht | fail ht | crash ht =>
    refine tally_stranger fun hm => hb ?_
    simp [busy?, ht, hm]

/-- The thread turns to no frame of a session that takes none. -/
theorem busy?_works (h : Works b w w' events) (hs : w.isStopping n = true)
    (hb : w.busy? ≠ some n) : w'.busy? ≠ some n := by
  cases h with
  | rest | decline | ignore | halt => exact hb
  | discard ht =>
    simp [busy?, ht]
  | heed _ _ hflag =>
    intro heq
    have hn := Option.some.inj heq
    rw [hn, hs] at hflag
    cases hflag
  | reach ht =>
    simpa [busy?, ht] using hb
  | serve | collapse | release | shutdown | miss | lose | finish | fail | crash | report =>
    simp [busy?, reportFault]

/-- The slots of a session that takes no frames stay empty, and a task that fails leaves them
empty. -/
theorem slot?_works_of_empty (h : Works b w w' events)
    (hempty : w.failing? ≠ some n → ∀ role, w.slot? n role = none) (hf : w'.failing? ≠ some n)
    (role : Role) : w'.slot? n role = none := by
  by_cases hfailing : w.failing? = some n
  · cases h with
    | rest => exact absurd hfailing hf
    | @report active _ ht =>
      have hn : active.session = n := by simpa [failing?, ht] using hfailing
      rw [← hn]
      exact slot?_clearSlots w active.session role
    | serve _ ht | decline _ ht | collapse _ ht | ignore ht | discard ht | heed ht | halt ht
    | release _ ht | shutdown ht | miss ht | reach ht | lose ht | finish ht | fail ht | crash ht =>
      simp [failing?, ht] at hfailing
  · cases hslot : w'.slot? n role with
    | none => rfl
    | some frame =>
      have hnone := hempty hfailing role
      rw [slot?_works h hslot] at hnone
      cases hnone

/-- A backend is called only when the thread is at a frame of its session. -/
theorem calls_works (h : Works b w w' events) :
    calls events = [] ∨ ∃ n, w.busy? = some n ∧ w.focus = some n := by
  have quiet : ∀ effects : List Effect, (effects.map Event.effect).filterMap Event.call? = [] := by
    intro effects
    simp [List.filterMap_eq_nil_iff, Event.call?]
  cases h with
  | rest | ignore | discard | heed | halt | miss | lose | report => exact .inl rfl
  | serve | decline | collapse => exact .inl (quiet _)
  | release notices =>
    left
    simp [calls, List.filterMap_eq_nil_iff, Event.call?, Event.notice]
  | @shutdown active => exact .inl (by cases active <;> rfl)
  | @reach active _ _ ht | @finish active _ _ _ _ ht | @fail active _ _ _ _ ht
  | @crash active _ _ _ _ ht =>
    exact .inr ⟨active.session, by simp [busy?, ht],
      Course.focus_of_session (by simp [session?, active?, ht])⟩

/-- The thread tells of a fault that ends a session, or the channel of the faults is as it was. -/
theorem faults_works (h : Works b w w' events) :
    (events.filterMap Event.fault? = [] ∧ w'.faults ++ w'.pending = w.faults ++ w.pending) ∨
      ∃ active role frame fault, w.thread = .uploading active role frame ∧
        events.filterMap Event.fault? = [fault] ∧
        w'.faults ++ w'.pending = w.faults ++ w.pending ++ [fault] ∧
        w'.failing? = some active.session ∧ w'.isStopping active.session = true ∧
        (w'.tally active.session).isSome = true := by
  have quiet : ∀ effects : List Effect,
      (effects.map Event.effect).filterMap Event.fault? = [] := Event.fault?_effects
  cases h with
  | rest => exact .inl ⟨rfl, rfl⟩
  | serve _ ht | decline _ ht | collapse _ ht =>
    refine .inl ⟨quiet _, ?_⟩
    simp [pending, ht]
  | ignore ht | discard ht | heed ht | halt ht | miss ht | lose ht =>
    refine .inl ⟨rfl, ?_⟩
    simp [pending, ht]
  | release notices ht =>
    refine .inl ⟨Event.fault?_notices notices, ?_⟩
    simp [pending, ht]
  | @shutdown active _ ht =>
    refine .inl ⟨by cases active <;> rfl, ?_⟩
    simp [pending, ht]
  | reach ht =>
    refine .inl ⟨rfl, ?_⟩
    simp [pending, ht]
  | report ht =>
    refine .inl ⟨rfl, ?_⟩
    simp [pending, ht, reportFault]
  | @finish active role frame inbox _ ht _ ho =>
    have hnone := Loop.faults_processes (Loop.process_processes b active.loop inbox role frame)
    rw [ho] at hnone
    refine .inl ⟨hnone, ?_⟩
    simp [pending, ht]
  | @crash active role frame inbox _ ht _ ho =>
    have hnone := Loop.faults_processes (Loop.process_processes b active.loop inbox role frame)
    rw [ho] at hnone
    refine .inl ⟨?_, by simp [pending, ht]⟩
    rw [List.filterMap_append, hnone]
    rfl
  | @fail active role frame inbox fault ht hi ho =>
    have hone := Loop.faults_processes (Loop.process_processes b active.loop inbox role frame)
    rw [ho] at hone
    have hinbox := Course.inbox?_modifyInbox_self
      (fun _ => (active.loop.process b inbox role frame).inbox.requestStop) hi
    refine .inr ⟨active, role, frame, fault, ht, ?_, ?_, rfl, isStopping_eq hinbox, ?_⟩
    · rw [List.filterMap_append, hone]
      rfl
    · simp [pending, ht]
    · unfold tally
      exact (congrArg (fun i => (Option.map (·.stats) i).isSome) hinbox).trans rfl

end World

namespace Course

variable {c c' : Course σ} {n : Nat} {tally : Stats}

/-! ## A session that has failed -/

/-- Nothing moves in a session that has failed, and the thread keeps it until it is stopped. -/
structure Frozen (c : Course σ) (n : Nat) (tally : Stats) : Prop where
  endpoint : n ∈ c.endpoints
  stopping : c.world.isStopping n = true
  tally : c.world.tally n = some tally
  away : c.world.busy? ≠ some n
  empty : c.world.failing? ≠ some n → ∀ role, c.world.slot? n role = none
  served : c.world.running = some n → c.world.session? = some n

/-- What is no work of the thread leaves a session frozen if it leaves its state as it was. -/
theorem frozen_still (hc : Frozen c n tally) (hn : n ∈ c'.endpoints)
    (ht : c'.world.thread = c.world.thread)
    (hr : c'.world.running = some n → c.world.running = some n)
    (hs : c'.world.isStopping n = true) (htally : c'.world.tally n = c.world.tally n)
    (hslot : ∀ role, c'.world.slot? n role = c.world.slot? n role) : Frozen c' n tally := by
  have hbusy : c'.world.busy? = c.world.busy? := by
    unfold World.busy?
    rw [ht]
  have hfailing : c'.world.failing? = c.world.failing? := by
    unfold World.failing?
    rw [ht]
  have hsession := World.session?_of_thread ht
  refine ⟨hn, hs, htally.trans hc.tally, hbusy ▸ hc.away, fun hf role => ?_, fun hrun => ?_⟩
  · rw [hslot]
    exact hc.empty (hfailing ▸ hf) role
  · rw [hsession]
    exact hc.served (hr hrun)

/-- A submission to another session, or one that is left out. -/
theorem frozen_hands (hc : Frozen c n tally) {m : Nat} {role : Role} {frame : Frame}
    (h : Hands c m role frame c') : Frozen c' n tally := by
  have other : ∀ {f : Inbox → Inbox}, c.world.isStopping m = false →
      (c.world.modifyInbox m f).inbox? n = c.world.inbox? n := by
    intro f hm
    rw [World.inbox?_modifyInbox, if_neg]
    rintro rfl
    rw [hc.stopping] at hm
    cases hm
  have still : c'.endpoints = c.endpoints → c'.world.thread = c.world.thread →
      c'.world.running = c.world.running → c'.world.inbox? n = c.world.inbox? n →
      Frozen c' n tally := by
    intro hends ht hr hi
    refine frozen_still hc (hends ▸ hc.endpoint) ht (fun h => hr ▸ h) ?_ ?_ fun role => ?_
    · unfold World.isStopping
      rw [hi]
      exact hc.stopping
    · unfold World.tally
      rw [hi]
    · unfold World.slot?
      rw [hi]
  cases h with
  | ignore => exact still rfl rfl rfl rfl
  | refuse _ hm | replace _ hm | queue _ hm | miss _ hm => exact still rfl rfl rfl (other hm)

theorem tally_manages (h : Sound c) (hm : Manages c c') (hn : n ∈ c.endpoints) :
    c'.world.tally n = c.world.tally n := by
  have posted : ∀ task : Task σ, (c.world.post task).tally n = c.world.tally n := by
    intro task
    unfold World.tally World.inbox?
    rw [inboxes_post]
  cases hm with
  | refuseStart | leave | loseStart | failStart | grant | close | depart => rfl
  | startUnheard | start =>
    unfold World.tally World.inbox?
    rw [List.getElem?_append_left (h.endpoint_lt n hn)]
  | raise =>
    refine World.map_inbox?_modifyInbox fun i _ _ => ?_
    rfl
  | askStop => exact posted .stop
  | askEnd => exact posted .shutdown

theorem frozen_manages (h : Sound c) (hm : Manages c c') (hc : Frozen c n tally) :
    Frozen c' n tally := by
  have hspare := spares_manages hm
  refine frozen_still hc (hspare.endpoints n hc.endpoint) hspare.thread (fun hrun => ?_)
    (hspare.stopping n hc.stopping) (tally_manages h hm hc.endpoint) (hspare.slot n)
  cases hm with
  | refuseStart | leave | loseStart | failStart | close | depart | startUnheard | start =>
    exact hrun
  | raise => cases hrun
  | askStop | askEnd => rwa [running_post] at hrun
  | grant hd =>
    cases hrun
    exact absurd hc.endpoint (Footing.agrees_starting h.agrees hd).2.2.1

/-- The thread keeps a session that it is not at while the owner takes it for running. -/
theorem served_works (h : Sound c) {world : World σ} {events : List Event}
    (hw : World.Works b c.world world events) (hr : c.world.running = some n)
    (hs : c.world.session? = some n) (hb : c.world.busy? ≠ some n) :
    world.session? = some n := by
  have ordered : ∀ {task : Task σ} {queue : List (Task σ)}, c.world.queue = task :: queue →
      task.role? = none → False := by
    intro task queue hq ht
    have ho : c.footing.orders = _ := footing_orders hq ht
    have hnone : c.world.running = none :=
      Footing.running_of_orders h.agrees (by rw [ho]; exact List.cons_ne_nil _ _)
    rw [hnone] at hr
    cases hr
  cases hw with
  | serve _ _ hq | collapse _ _ hq | release _ _ hq | shutdown _ hq => exact (ordered hq rfl).elim
  | rest | decline | ignore | halt | discard => exact hs
  | crash ht =>
    refine absurd ?_ hb
    simpa [World.busy?, World.session?, World.active?, ht] using hs
  | heed ht | miss ht | reach ht | lose ht | finish ht | fail ht | report ht =>
    simpa [World.session?, World.active?, World.reportFault, ht] using hs

theorem frozen_work (h : Sound c) (hc : Frozen c n tally) {world : World σ} {events : List Event}
    (hw : World.Works b c.world world events) (told : List (Nat × Role))
    (story : List Happening) : Frozen { c with world, told, story } n tally where
  endpoint := hc.endpoint
  stopping := World.isStopping_works hw hc.stopping
  tally := (World.tally_works hw hc.away).trans hc.tally
  away := World.busy?_works hw hc.stopping hc.away
  empty := World.slot?_works_of_empty hw hc.empty
  served := fun hr => by
    have hsame : world.running = c.world.running := by
      cases hw <;> rfl
    have hr : c.world.running = some n := hsame.symm.trans hr
    exact served_works h hw hr (hc.served hr) hc.away

theorem frozen_strides (h : Sound c) (hs : Strides b c c') (hc : Frozen c n tally) :
    Frozen c' n tally := by
  cases hs with
  | hand _ hand => exact frozen_hands hc hand
  | work hw => exact frozen_work h hc hw _ _
  | owner hm => exact frozen_manages h hm hc

theorem asides_hands {m : Nat} {role : Role} {frame : Frame} (h : Hands c m role frame c') :
    ∃ new, c'.story = c.story ++ new ∧ ∀ x ∈ new, x.isAside = true := by
  cases h <;> exact ⟨_, List.append_assoc _ _ _, by simp [Happening.isAside]⟩

/-- The backend of a frozen session is not called. -/
theorem calls_strides (hs : Strides b c c') (hc : Frozen c n tally) :
    calls (workFor n c'.story) = calls (workFor n c.story) := by
  cases hs with
  | hand _ hand =>
    obtain ⟨new, hstory, hnew⟩ := asides_hands hand
    rw [hstory, workFor_append, workFor_asides hnew, List.append_nil]
  | owner hm =>
    obtain ⟨new, hstory, hnew⟩ := (spares_manages hm).story
    have hnone : workFor n new = [] := by
      refine List.filterMap_eq_nil_iff.mpr fun x hx => ?_
      have hx := hnew x hx
      cases x <;> first | rfl | cases hx
    rw [hstory, workFor_append, hnone, List.append_nil]
  | work hw =>
    dsimp only
    rw [workFor_append, workFor_worked]
    split
    · rename_i hf
      unfold calls
      rw [List.filterMap_append]
      rcases World.calls_works hw with hnone | ⟨m, hb, hfocus⟩
      · unfold calls at hnone
        rw [hnone, List.append_nil]
      · obtain rfl : m = n := Option.some.inj (hfocus.symm.trans hf)
        exact absurd hb hc.away
    · rw [List.append_nil]

/-! ## Every fault is reported once -/

/-- A frame is uploaded only to a session whose endpoints were handed out. -/
theorem endpoint_of_uploading (b : Backend σ) (acts : List (Act σ)) {active : Active σ}
    {role : Role} {frame : Frame}
    (ht : (run b acts).world.thread = .uploading active role frame) :
    active.session ∈ (run b acts).endpoints := by
  have h := sound_run b acts
  have hs : (run b acts).world.session? = some active.session := by
    simp [World.session?, World.active?, ht]
  have hhand : (run b acts).world.inHand active.session = [(role, frame)] := by
    simp [World.inHand, ht]
  obtain ⟨t, hterm⟩ := term_of_focus h (focus_of_session hs)
  have htaken : (role, frame) ∈ takings active.session (run b acts).story := by
    rcases rounds_of_run b acts hterm with ⟨_, hnone, _⟩ | ⟨_, taken, _, _, _, _, htakings, _⟩
    · rw [hhand] at hnone
      cases hnone
    · rw [htakings, hhand]
      exact List.mem_append_right _ (List.mem_singleton.mpr rfl)
  obtain ⟨pre, post, hsplit⟩ := List.append_of_mem (mem_workFor.mp (mem_takings.mp htaken))
  obtain ⟨_, e, he, hn, _⟩ := traced_run b acts _ _ _ pre post hsplit
  rw [← hn]
  exact h.errand_endpoint e he

/-- The channel holds the faults that ended sessions, at most one for each session, and these
sessions are frozen. When the owner is gone, so is the channel. -/
structure Latched (c : Course σ) : Prop where
  channel : c.duty ≠ .left →
    c.world.faults ++ c.world.pending = (reports c.story).map Prod.snd
  once : ((reports c.story).map Prod.fst).Nodup
  frozen : ∀ x ∈ reports c.story, ∃ tally, Frozen c x.1 tally

/-- What tells of no fault leaves the channel as it was. -/
theorem latched_silent (hc : Latched c)
    (hfrozen : ∀ {n tally}, Frozen c n tally → Frozen c' n tally)
    (hduty : c'.duty ≠ .left → c.duty ≠ .left ∧
      c'.world.faults ++ c'.world.pending = c.world.faults ++ c.world.pending)
    (hreports : reports c'.story = reports c.story) : Latched c' := by
  refine ⟨fun hd => ?_, hreports ▸ hc.once, fun x hx => ?_⟩
  · obtain ⟨hd, hsame⟩ := hduty hd
    rw [hsame, hreports]
    exact hc.channel hd
  · rw [hreports] at hx
    obtain ⟨tally, hx⟩ := hc.frozen x hx
    exact ⟨tally, hfrozen hx⟩

theorem latched_work {acts : List (Act σ)} (hc : Latched (run b acts)) {world : World σ}
    {events : List Event} (hw : World.Works b (run b acts).world world events)
    (told : List (Nat × Role)) :
    Latched
      { run b acts with
        world, told
        story := (run b acts).story ++ events.map (.worked (run b acts).world.focus) } := by
  have h := sound_run b acts
  rcases World.faults_works hw with ⟨hquiet, hsame⟩ | ⟨active, role, frame, fault, ht, hone, hchannel,
    hfailing, hstopping, htally⟩
  · exact latched_silent hc (fun hf => frozen_work h hf hw _ _) (fun hd => ⟨hd, hsame⟩)
      (reports_append_quiet hquiet _)
  have hs : (run b acts).world.session? = some active.session := by
    simp [World.session?, World.active?, ht]
  have hbusy : (run b acts).world.busy? = some active.session := by simp [World.busy?, ht]
  have hreports : reports ((run b acts).story ++ events.map (.worked (run b acts).world.focus)) =
      reports (run b acts).story ++ [(active.session, fault)] := by
    rw [focus_of_session hs, reports_worked, hone]
    rfl
  refine ⟨fun hd => ?_, ?_, fun x hx => ?_⟩
  · have hbefore := hc.channel hd
    dsimp only
    rw [hchannel, hreports, hbefore, List.map_append]
    rfl
  · rw [hreports, List.map_append, List.nodup_append]
    refine ⟨hc.once, by simp, fun m hm m' hm' heq => ?_⟩
    obtain ⟨x, hx, rfl⟩ := List.mem_map.mp hm
    obtain ⟨_, hfrozen⟩ := hc.frozen x hx
    rw [heq, List.mem_singleton.mp hm'] at hfrozen
    exact hfrozen.away hbusy
  · rw [hreports] at hx
    rcases List.mem_append.mp hx with hold | hnew
    · obtain ⟨tally, hfrozen⟩ := hc.frozen x hold
      exact ⟨tally, frozen_work h hfrozen hw _ _⟩
    · rw [List.mem_singleton.mp hnew]
      obtain ⟨tally, htally⟩ := Option.isSome_iff_exists.mp htally
      have hsession : world.session? = some active.session := by
        unfold World.failing? at hfailing
        split at hfailing
        · rename_i hthread
          simpa [World.session?, World.active?, hthread] using hfailing
        · cases hfailing
      refine ⟨tally, endpoint_of_uploading b acts ht, hstopping, htally, fun hb => ?_,
        fun hf => absurd hfailing hf, fun _ => hsession⟩
      unfold World.failing? at hfailing
      unfold World.busy? at hb
      split at hfailing
      · rename_i hthread
        rw [hthread] at hb
        cases hb
      · cases hfailing

/-- What the owner does neither reports a fault nor takes one, until it is gone. -/
theorem channel_manages (hm : Manages c c') (hleft : c'.duty ≠ .left) :
    c.duty ≠ .left ∧ c'.world.faults ++ c'.world.pending = c.world.faults ++ c.world.pending := by
  unfold World.pending
  rw [(spares_manages hm).thread]
  cases hm with
  | refuseStart hd | startUnheard hd | start hd | raise hd | leave hd | loseStart hd
  | failStart hd | grant hd | close hd => exact ⟨by rw [hd]; nofun, rfl⟩
  | askStop hd | askEnd hd =>
    rw [faults_post]
    exact ⟨by rw [hd]; nofun, rfl⟩
  | depart => exact absurd rfl hleft

theorem latched_play (b : Backend σ) (deeds : List (Deed σ)) : Latched (play b deeds) := by
  refine play_induction b deeds ⟨fun _ => rfl, List.nodup_nil, nofun⟩ ?_
  rintro c c' ⟨acts, rfl⟩ hc hs
  have h := sound_run b acts
  cases hs with
  | work hw => exact latched_work hc hw _
  | hand _ hand =>
    obtain ⟨new, hstory, hnew⟩ := asides_hands hand
    have hsame : c'.duty = (run b acts).duty ∧ c'.world.faults = (run b acts).world.faults ∧
        c'.world.thread = (run b acts).world.thread := by
      cases hand <;> exact ⟨rfl, rfl, rfl⟩
    obtain ⟨hduty, hfaults, hthread⟩ := hsame
    refine latched_silent hc (fun hf => frozen_hands hf hand) (fun hd => ⟨hduty ▸ hd, ?_⟩) ?_
    · unfold World.pending
      rw [hfaults, hthread]
    · rw [hstory, reports_append_asides hnew]
  | owner hm =>
    obtain ⟨new, hstory, hnew⟩ := (spares_manages hm).story
    refine latched_silent hc (fun hf => frozen_manages h hm hf) (channel_manages hm) ?_
    rw [hstory, reports_append_orders hnew]

/-! ## After a fault -/

/-- Between two calls the thread waits for the stop of a frozen session. -/
theorem idle_of_frozen (hc : Frozen c n tally) (hr : c.world.running = some n)
    (hheld : c.world.Held) :
    ∃ active, c.world.thread = .idle (some active) ∧ active.session = n := by
  have hs := hc.served hr
  rcases hheld with (⟨active, ht⟩ | ⟨ht, _⟩) | ⟨active, role, frame, ht⟩
  · cases active with
    | none => simp [World.session?, World.active?, ht] at hs
    | some active => exact ⟨active, ht, by simpa [World.session?, World.active?, ht] using hs⟩
  · simp [World.session?, World.active?, ht] at hs
  · refine absurd ?_ hc.away
    simpa [World.busy?, World.session?, World.active?, ht] using hs

/-- In whatever order whole submissions, the thread and the owner go on, and whatever a backend
answers: the channel of the faults holds the faults that ended sessions, at most one for each
session. In such a session nothing moves any more. Its backend is not called, its counters stay,
a frame that is handed in is left out, and its slots are empty as soon as the thread is done with
the task that has failed. Its stop gives the backend up, and the next start succeeds. -/
theorem a_fault_freezes_its_session (b : Backend σ) (deeds later : List (Deed σ)) :
    let c := play b deeds
    let c' := play b (deeds ++ later)
    ((reports c.story).map Prod.fst).Nodup ∧
    (c.duty ≠ .left → c.world.faults ++ c.world.pending = (reports c.story).map Prod.snd) ∧
    ∀ n fault, (n, fault) ∈ reports c.story →
      calls (workFor n c'.story) = calls (workFor n c.story) ∧
      c'.world.tally n = c.world.tally n ∧
      (c'.world.failing? ≠ some n → ∀ role, c'.world.slot? n role = none) ∧
      (∀ role frame,
        c'.submit n role frame = c'.handed n role frame c'.world (.ok .ignored) []) ∧
      (c'.duty = .free → c'.world.running = some n → c'.world.Held →
        let w := (c'.world.stop b).1
        (∃ notices : List Notice, (c'.world.stop b).2 = .drop :: notices.map .notice) ∧
        w.Stopped ∧ w.faults = c'.world.faults ∧
        ∀ config factory clock backend, config.validate = .ok () →
          (factory config).outcome = .done backend →
            (w.start b config factory clock).2.1 = .ok w.inboxes.length ∧
            (w.start b config factory clock).1.running = some w.inboxes.length) := by
  intro c c'
  have hlatched : Latched c := latched_play b deeds
  refine ⟨hlatched.once, hlatched.channel, fun n fault hreport => ?_⟩
  obtain ⟨tally, hfrozen⟩ := hlatched.frozen _ hreport
  obtain ⟨hfrozen', hcalls⟩ := later_play
    (P := fun next => Frozen next n tally ∧ calls (workFor n next.story) = calls (workFor n c.story))
    b deeds later ⟨hfrozen, rfl⟩ (by
      rintro _ next ⟨acts, rfl⟩ ⟨hf, hsame⟩ hs
      exact ⟨frozen_strides (sound_run b acts) hs hf, (calls_strides hs hf).trans hsame⟩)
  have h' : Sound c' := by
    obtain ⟨acts, hrun⟩ := play_run b (deeds ++ later)
    change Sound (play b (deeds ++ later))
    rw [hrun]
    exact sound_run b acts
  refine ⟨hcalls, hfrozen'.tally.trans hfrozen.tally.symm, hfrozen'.empty, fun role frame => ?_,
    fun hd hr hheld => ?_⟩
  · exact submit_ignore hfrozen'.endpoint hfrozen'.stopping role frame
  · obtain ⟨active, ht, hn⟩ := idle_of_frozen hfrozen' hr hheld
    obtain ⟨hevents, hstopped, hfaults⟩ := stop_of_running (b := b) h' ht (hr.trans (by rw [hn]))
    refine ⟨hevents, hstopped, hfaults, fun config factory clock backend hvalid hmade => ?_⟩
    rw [World.start_succeeds hstopped hvalid hmade]
    exact ⟨rfl, rfl⟩

/-- A backend loses its device in its first upload, while a frame of the other source waits. The
notification of this frame is heeded after the fault, and a frame comes late. -/
theorem a_lost_device_is_reported_once :
    let b := obliging (.failed (.gpuOperation "device lost"))
    let deeds := opening () ++ [.submit 0 .primary (pixel 9 9 9), .submit 0 .secondary (pixel 5 5 5),
      .work, .work, .work]
    let later : List (Deed Unit) := [.work, .work, .submit 0 .primary (pixel 7 7 7), .work]
    let c := play b deeds
    let c' := play b (deeds ++ later)
    (0, .gpuOperation "device lost") ∈ reports c.story ∧
      (c.world.slot? 0 .secondary).isSome = true ∧ c'.world.failing? ≠ some 0 ∧
      (calls (workFor 0 c.story)).length = 1 ∧
      calls (workFor 0 c'.story) = calls (workFor 0 c.story) ∧
      ∀ role, c'.world.slot? 0 role = none := by
  intro b deeds later c c'
  have hreport : (0, .gpuOperation "device lost") ∈ reports c.story := by decide +kernel
  have hdone : c'.world.failing? ≠ some 0 := by decide +kernel
  obtain ⟨hcalls, _, hempty, _⟩ := (a_fault_freezes_its_session b deeds later).2.2 0 _ hreport
  exact ⟨hreport, by decide +kernel, hdone, by decide +kernel, hcalls, hempty hdone⟩

end Course

end PictureInPicture
