-- Which faults end a session. A frame that the backend refuses costs only the frame, and the
-- session goes on. A composite that the backend refuses ends the session like any other fault.
import Mathlib.Data.List.Basic
import PictureInPicture.Proofs.Session.Record

namespace PictureInPicture

variable {σ : Type} {b : Backend σ}

/-! ## Calls that fail -/

/-- Only frames are refused: a fault that comes of drawing ends the session. -/
def Backend.RefusesOnlyFrames (b : Backend σ) : Prop :=
  ∀ s ops stamp fault, (b.render s ops stamp).outcome = .failed fault → fault.isFatal = true

/-- The fault of a call on a backend. -/
def Event.failure? : Event → Option Fault
  | uploaded _ outcome => outcome.fault?
  | rendered _ outcome => outcome.fault?
  | _ => none

/-- The session on whose backend a call has failed. -/
def Happening.failure? : Happening → Option (Nat × Fault)
  | worked (some session) event => event.failure?.map (session, ·)
  | _ => none

/-- The faults of all calls on backends, in their order. -/
def failures (story : List Happening) : List (Nat × Fault) := story.filterMap Happening.failure?

/-- Every composite that has failed has failed for a fault that ends the session. -/
def Harsh (events : List Event) : Prop :=
  ∀ stamp fault, .rendered stamp (.failed fault) ∈ events → fault.isFatal = true

/-- A fault ends the session if it is fatal, unless a composite was refused. -/
theorem fault?_eq_failure? {e : Event}
    (he : ∀ stamp fault, e = .rendered stamp (.failed fault) → fault.isFatal = true) :
    e.fault? = e.failure?.filter (·.isFatal) := by
  cases e with
  | uploaded role outcome =>
    cases outcome with
    | failed fault => cases hf : fault.isFatal <;> simp [Event.fault?, Event.failure?,
        Outcome.fault?, Option.filter, hf]
    | done | crashed => rfl
  | rendered stamp outcome =>
    cases outcome with
    | failed fault =>
      simp [Event.fault?, Event.failure?, Outcome.fault?, Option.filter, he stamp fault rfl]
    | done | crashed => rfl
  | create | call | effect | drop => rfl

theorem reports_eq_failures {story : List Happening}
    (h : ∀ session stamp fault, .worked session (.rendered stamp (.failed fault)) ∈ story →
      fault.isFatal = true) :
    reports story = (failures story).filter (·.2.isFatal) := by
  unfold reports failures
  rw [List.filter_filterMap]
  refine List.filterMap_congr fun x hx => ?_
  cases x with
  | worked session event =>
    cases session with
    | none => rfl
    | some n =>
      have hfault := fault?_eq_failure? (e := event) fun stamp fault he => by
        subst he
        exact h (some n) stamp fault hx
      simp only [Happening.report?, Happening.failure?, hfault]
      cases event.failure? with
      | none => rfl
      | some fault => cases hf : fault.isFatal <;> simp [Option.filter, hf]
  | parked | answered | started | refused | stopped => rfl

namespace Loop

variable {l : Loop σ} {i : Inbox} {role : Role} {frame : Frame}

theorem harsh_draws (hb : b.RefusesOnlyFrames) {turn : Turn σ Attempt} (h : Draws b l i turn) :
    Harsh turn.events := by
  have drawn : Harsh (l.drawing b) := by
    intro stamp fault hmem
    unfold drawing at hmem
    rcases List.mem_cons.mp hmem with heq | hmem
    · cases heq
    rcases List.mem_append.mp hmem with hmem | hmem
    · cases Event.not_turn_effects _ _ hmem
    · have heq := List.mem_singleton.mp hmem
      injection heq with _ heq
      exact hb _ _ _ fault heq.symm
  have aside : ∀ more : List Event, (∀ e ∈ more, e.isTurn = false) → Harsh (l.drawing b ++ more) := by
    intro more hmore stamp fault hmem
    rcases List.mem_append.mp hmem with hmem | hmem
    · exact drawn stamp fault hmem
    · cases hmore _ hmem
  cases h with
  | withhold => exact fun stamp fault hmem => by cases List.mem_singleton.mp hmem
  | present _ _ notices => exact aside _ (Event.not_turn_notices notices)
  | skip _ _ n => exact aside [.notice n] (List.forall_mem_singleton.mpr rfl)
  | fail | crash => exact drawn

theorem harsh_processes (hb : b.RefusesOnlyFrames) {turn : Turn σ (Option Attempt)}
    (h : Processes b l i role frame turn) : Harsh turn.events := by
  have uploaded : Harsh (l.uploading b role frame) := by
    intro stamp fault hmem
    rcases List.mem_append.mp hmem with hmem | hmem
    · cases Event.not_turn_effects _ _ hmem
    · cases List.mem_singleton.mp hmem
  intro stamp fault hmem
  cases h with
  | fail | crash => exact uploaded stamp fault hmem
  | reject =>
    rcases List.mem_append.mp hmem with hmem | hmem
    · exact uploaded stamp fault hmem
    · cases List.mem_singleton.mp hmem
  | store _ notices hd =>
    rcases List.mem_append.mp hmem with hmem | hmem
    · rcases List.mem_append.mp hmem with hmem | hmem
      · exact uploaded stamp fault hmem
      · cases Event.not_turn_notices notices _ hmem
    · exact harsh_draws hb hd stamp fault hmem

end Loop

namespace World

variable {w w' : World σ} {events : List Event}

theorem harsh_works (hb : b.RefusesOnlyFrames) (h : Works b w w' events) : Harsh events := by
  rcases works_turn h with ⟨active, role, frame, i, hclose⟩ | ⟨hquiet, _⟩
  · obtain ⟨closing, rfl, hclosing⟩ := hclose.events
    intro stamp fault hmem
    rcases List.mem_append.mp hmem with hmem | hmem
    · exact Loop.harsh_processes hb (Loop.process_processes b active.loop i role frame) stamp fault
        hmem
    · cases hclosing _ hmem
  · intro stamp fault hmem
    cases hquiet _ hmem

/-- What raises no flag leaves a session that takes frames as one. -/
theorem isStopping_of_modifyInbox {f : Inbox → Inbox} {n m : Nat}
    (hf : ∀ i, w.inbox? n = some i → (f i).stopping = true → i.stopping = true)
    (hm : (w.modifyInbox n f).isStopping m = true) : w.isStopping m = true := by
  unfold isStopping at hm ⊢
  rw [inbox?_modifyInbox] at hm
  split at hm
  · rename_i heq
    subst heq
    cases hi : w.inbox? n with
    | none => simp [hi] at hm
    | some i =>
      rw [hi] at hm
      exact hf i hi hm
  · exact hm

/-- The thread raises the flag of a session only with a fault that it tells of. -/
theorem raised_works (h : Works b w w' events) {n : Nat} (hs : w'.isStopping n = true) :
    w.isStopping n = true ∨
      (∃ active role frame, w.thread = .uploading active role frame ∧ active.session = n) ∧
        ∃ fault, fault ∈ events.filterMap Event.fault? := by
  cases h with
  | rest | serve | decline | collapse | ignore | heed | halt | shutdown | miss | lose =>
    exact .inl hs
  | @discard active | @release _ active | @report active =>
    exact .inl ((isStopping_modifyInbox Inbox.stopping_clearSlots active.session n).symm.trans hs)
  | @reach active role =>
    have hsame := isStopping_modifyInbox (w := w) (fun i => i.stopping_withdraw role)
      active.session n
    exact .inl (hsame.symm.trans hs)
  | @finish active role frame i _ ht hi | @crash active role frame i _ ht hi =>
    refine .inl (isStopping_of_modifyInbox (fun i' hi' hs => ?_) hs)
    rw [hi] at hi'
    cases hi'
    rw [← (Loop.processes_sameSlots (Loop.process_processes b active.loop i role frame)).stopping]
    exact hs
  | @fail active role frame i fault ht hi ho =>
    by_cases hn : active.session = n
    · have hone := Loop.faults_processes (Loop.process_processes b active.loop i role frame)
      rw [ho] at hone
      refine .inr ⟨⟨active, role, frame, ht, hn⟩, fault, ?_⟩
      rw [List.filterMap_append, hone]
      exact List.mem_append_left _ List.mem_cons_self
    · have hsame := inbox?_modifyInbox w active.session n fun _ =>
        (active.loop.process b i role frame).inbox.requestStop
      rw [if_neg hn] at hsame
      unfold isStopping at hs ⊢
      rw [← hsame]
      exact .inl hs

end World

namespace Course

variable {c c' : Course σ} {n : Nat}

/-! ## The channel of the faults -/

theorem harsh_run (hb : b.RefusesOnlyFrames) (acts : List (Act σ)) :
    ∀ session stamp fault, .worked session (.rendered stamp (.failed fault)) ∈ (run b acts).story →
      fault.isFatal = true := by
  refine run_induction b acts (P := fun c => ∀ session stamp fault,
    .worked session (.rendered stamp (.failed fault)) ∈ c.story → fault.isFatal = true)
    (by simp [new]) ?_
  intro c c' hc hm session stamp fault hmem
  obtain ⟨new, hstory, htells⟩ := moves_tells hm
  rw [hstory] at hmem
  rcases List.mem_append.mp hmem with hold | hnew
  · exact hc session stamp fault hold
  · cases htells with
    | work hw =>
      obtain ⟨e, he, heq⟩ := List.mem_map.mp hnew
      cases heq
      exact World.harsh_works hb hw stamp fault he
    | close => cases List.mem_singleton.mp hnew
    | aside hasides => cases hasides _ hnew

/-- The channel holds the faults that ended sessions, until the owner is gone. -/
theorem channel_run (b : Backend σ) (acts : List (Act σ)) :
    (run b acts).duty ≠ .left →
      (run b acts).world.faults ++ (run b acts).world.pending =
        (reports (run b acts).story).map Prod.snd := by
  refine run_induction b acts (P := fun c => c.duty ≠ .left →
    c.world.faults ++ c.world.pending = (reports c.story).map Prod.snd) (fun _ => rfl) ?_
  intro c c' hc hm hd
  cases hm with
  | accept | refuse | park | confirm | overtake | replace | tell | unheard | withdraw =>
    refine (hc hd).trans (congrArg _ ?_)
    exact (reports_append_asides (asides_tale _ _)).symm
  | turnAway =>
    refine (hc hd).trans (congrArg _ ?_)
    exact (reports_append_asides (List.forall_mem_singleton.mpr rfl)).symm
  | approach => exact hc hd
  | work hw =>
    rcases World.faults_works hw with ⟨hquiet, hsame⟩ | ⟨active, role, frame, fault, ht, hone,
      hchannel, _⟩
    · exact hsame.trans ((hc hd).trans (congrArg _ (reports_append_quiet hquiet _).symm))
    · have hfocus : c.world.focus = some active.session :=
        focus_of_session (by simp [World.session?, World.active?, ht])
      dsimp only at hd ⊢
      rw [hchannel, hc hd, hfocus, reports_worked, hone, List.map_append]
      rfl
  | owner hm =>
    obtain ⟨new, hstory, hnew⟩ := (spares_manages hm).story
    obtain ⟨hd', hsame⟩ := channel_manages hm hd
    rw [hsame, hc hd', hstory, reports_append_orders hnew]

/-! ## Why a session takes no frames -/

/-- Only a session whose endpoints were handed out is told to stop, and the running one has come
upon a fault if its flag is up. -/
structure Provoked (c : Course σ) : Prop where
  endpoint : ∀ n, c.world.isStopping n = true → n ∈ c.endpoints
  cause : ∀ n, c.world.running = some n → c.world.isStopping n = true →
    ∃ fault, (n, fault) ∈ reports c.story

theorem provoked_still (hc : Provoked c)
    (hs : ∀ n, c'.world.isStopping n = true → c.world.isStopping n = true)
    (hn : ∀ n ∈ c.endpoints, n ∈ c'.endpoints)
    (hr : ∀ n, c'.world.running = some n → c.world.isStopping n = true → c.world.running = some n)
    (hstory : ∃ new, c'.story = c.story ++ new) : Provoked c' := by
  refine ⟨fun n hn' => hn n (hc.endpoint n (hs n hn')), fun n hrun hstop => ?_⟩
  obtain ⟨fault, hfault⟩ := hc.cause n (hr n hrun (hs n hstop)) (hs n hstop)
  obtain ⟨new, hstory⟩ := hstory
  refine ⟨fault, ?_⟩
  rw [hstory]
  unfold reports
  rw [List.filterMap_append]
  exact List.mem_append_left _ hfault

/-- A session that is asked for takes frames. -/
theorem isStopping_of_ask (w : World σ) (config : Config Float32) (queue : List (Task σ))
    (hs : ({ w with inboxes := w.inboxes ++ [.ofConfig config], answer := none, queue } :
      World σ).isStopping n = true) : w.isStopping n = true := by
  unfold World.isStopping World.inbox? at hs ⊢
  rcases Nat.lt_trichotomy n w.inboxes.length with hlt | rfl | hgt
  · rwa [List.getElem?_append_left hlt] at hs
  · simp [Inbox.ofConfig] at hs
  · rw [List.getElem?_eq_none (by simp; omega)] at hs
    cases hs

theorem provoked_manages (h : Sound c) (hm : Manages c c') (hc : Provoked c) : Provoked c' := by
  have hspare := spares_manages hm
  obtain ⟨new, hstory, _⟩ := hspare.story
  have still : (∀ n, c'.world.isStopping n = true → c.world.isStopping n = true) →
      (∀ n, c'.world.running = some n → c.world.isStopping n = true →
        c.world.running = some n) → Provoked c' :=
    fun hs hr => provoked_still hc hs hspare.endpoints hr ⟨new, hstory⟩
  have posted : ∀ {task : Task σ} {m : Nat}, (c.world.post task).isStopping m = true →
      c.world.isStopping m = true := by
    intro task m hs
    unfold World.isStopping World.inbox? at hs ⊢
    rwa [inboxes_post] at hs
  cases hm with
  | refuseStart | leave | loseStart | failStart | close | depart =>
    exact still (fun _ hs => hs) fun _ hr _ => hr
  | startUnheard | start =>
    exact still (fun _ hs => isStopping_of_ask c.world _ _ hs) fun _ hr _ => hr
  | askStop | askEnd =>
    refine still (fun _ hs => posted hs) fun _ hr _ => ?_
    rwa [running_post] at hr
  | @raise session leaving hd hr =>
    refine ⟨fun n hs => ?_, fun n hr _ => by cases hr⟩
    have hs : (c.world.modifyInbox session .requestStop).isStopping n = true := hs
    rw [World.isStopping_requestStop] at hs
    rcases Bool.or_eq_true_iff.mp hs with hold | hnew
    · exact hc.endpoint n hold
    · obtain ⟨rfl, _⟩ : session = n ∧ _ := by simpa using hnew
      exact (served_of_running h hr).2.1
  | @grant session hd =>
    -- The flag of the session is down, for its endpoints were not handed out before.
    refine still (fun _ hs => hs) fun n hr hs => ?_
    obtain rfl : session = n := Option.some.inj hr
    exact absurd (hc.endpoint session hs) (Footing.agrees_starting h.agrees hd).2.2.1

theorem provoked_work {acts : List (Act σ)} (hc : Provoked (run b acts)) {world : World σ}
    {events : List Event} (hw : World.Works b (run b acts).world world events)
    (told : List (Nat × Role)) :
    Provoked
      { run b acts with
        world, told
        story := (run b acts).story ++ events.map (.worked (run b acts).world.focus) } where
  endpoint := by
    intro n hs
    rcases World.raised_works hw hs with hold | ⟨⟨active, role, frame, ht, rfl⟩, _⟩
    · exact hc.endpoint n hold
    · exact endpoint_of_uploading b acts ht
  cause := by
    intro n hr hs
    have hsame : world.running = (run b acts).world.running := by
      cases hw <;> rfl
    have hr : (run b acts).world.running = some n := hsame.symm.trans hr
    dsimp only
    unfold reports
    rw [List.filterMap_append]
    rcases World.raised_works hw hs with hold | ⟨⟨active, role, frame, ht, rfl⟩, fault, hfault⟩
    · obtain ⟨fault, hfault⟩ := hc.cause n hr hold
      exact ⟨fault, List.mem_append_left _ hfault⟩
    · have hfocus : (run b acts).world.focus = some active.session :=
        focus_of_session (by simp [World.session?, World.active?, ht])
      obtain ⟨e, he, hreport⟩ := List.mem_filterMap.mp hfault
      refine ⟨fault, List.mem_append_right _ (List.mem_filterMap.mpr
        ⟨.worked (some active.session) e, ?_, ?_⟩)⟩
      · rw [hfocus]
        exact List.mem_map_of_mem he
      · simp [Happening.report?, hreport]

theorem provoked_run (b : Backend σ) (acts : List (Act σ)) : Provoked (run b acts) := by
  induction acts using List.reverseRecOn with
  | nil =>
    constructor
    · intro n hs
      cases hs
    · intro n hr
      cases hr
  | append_singleton acts act ih =>
    rw [run_append]
    rcases step_moves b (run b acts) act with hsame | hm
    · rw [hsame]
      exact ih
    obtain ⟨new, hstory, _⟩ := moves_tells hm
    generalize (run b acts).step b act = c' at hm hstory
    have handed : ∀ {n : Nat} {f : Inbox → Inbox}, (∀ i, (f i).stopping = i.stopping) →
        ∀ m, ((run b acts).world.modifyInbox n f).isStopping m = true →
          (run b acts).world.isStopping m = true := by
      intro n f hf m hs
      rwa [World.isStopping_modifyInbox hf] at hs
    cases hm with
    | turnAway | approach | accept | confirm | overtake | unheard | tell =>
      exact provoked_still ih (fun _ hs => hs) (fun _ hn => hn) (fun _ hr _ => hr) ⟨new, hstory⟩
    | refuse | park | replace | withdraw =>
      refine provoked_still ih ?_ (fun _ hn => hn) (fun _ hr _ => hr) ⟨new, hstory⟩
      apply handed
      intro i
      rfl
    | work hw => exact provoked_work ih hw _
    | owner hm => exact provoked_manages (sound_run b acts) hm ih

/-- The running session goes on until a fault ends it: it takes frames, and the thread draws for
it if it has not crashed. -/
theorem goes_on (b : Backend σ) (acts : List (Act σ)) {n : Nat}
    (hr : (run b acts).world.running = some n) (hl : (run b acts).world.listening = true)
    (hnone : ∀ fault, (n, fault) ∉ reports (run b acts).story) :
    (run b acts).world.isStopping n = false ∧ (run b acts).world.session? = some n := by
  constructor
  · cases hs : (run b acts).world.isStopping n with
    | false => rfl
    | true =>
      obtain ⟨fault, hfault⟩ := (provoked_run b acts).cause n hr hs
      exact absurd hfault (hnone fault)
  · obtain ⟨_, _, _, hs | ⟨_, hgone⟩⟩ := served_of_running (sound_run b acts) hr
    · exact hs
    · cases hl.symm.trans hgone

/-- The end of an upload that was refused for a fault that is not fatal. -/
theorem work_of_refusal {active : Active σ} {role : Role} {frame : Frame} {i : Inbox}
    {fault : Fault} (ht : c.world.thread = .uploading active role frame)
    (hi : c.world.inbox? active.session = some i)
    (ho : (b.upload active.loop.backend role frame).outcome = .failed fault)
    (hf : fault.isFatal = false) :
    (c.step b .work).world =
      { c.world.modifyInbox active.session (·.countRejected role) with
        thread := .idle (some { active with loop := active.loop.uploaded b role frame }) } := by
  have hprocess : (active.loop.process b i role frame).outcome = .done none ∧
      (active.loop.process b i role frame).inbox = i.countRejected role ∧
      (active.loop.process b i role frame).loop = active.loop.uploaded b role frame := by
    unfold Loop.process
    simp [ho, hf, Loop.uploaded]
  obtain ⟨hdone, hinbox, hloop⟩ := hprocess
  simp only [step, work, World.work, ht, World.finishUpload, hi, hdone, hinbox, hloop,
    World.setInbox_eq_modifyInbox (·.countRejected role) hi]

/-- For a backend that refuses no composite, in every state: the faults that were sent to the owner
are the fatal ones among the faults of all calls on backends, in their order. A running session
none of whose calls has failed for a fatal fault takes frames, and the thread draws for it. A
frame that the backend refuses is counted and costs nothing else: the next step of the thread leaves
all there is as it was, and the thread waits for the next task of the session. -/
theorem only_fatal_faults_end_a_session (b : Backend σ) (hb : b.RefusesOnlyFrames)
    (acts : List (Act σ)) :
    let c := run b acts
    (c.duty ≠ .left → c.world.faults ++ c.world.pending =
      ((failures c.story).filter (·.2.isFatal)).map Prod.snd) ∧
    (∀ n, c.world.running = some n → c.world.listening = true →
      (∀ fault, (n, fault) ∈ failures c.story → fault.isFatal = false) →
        c.world.isStopping n = false ∧ c.world.session? = some n) ∧
    ∀ active role frame i fault, c.world.thread = .uploading active role frame →
      c.world.inbox? active.session = some i →
      (b.upload active.loop.backend role frame).outcome = .failed fault →
      fault.isFatal = false →
        (c.step b .work).world =
          { c.world.modifyInbox active.session (·.countRejected role) with
            thread := .idle (some { active with loop := active.loop.uploaded b role frame }) } := by
  intro c
  have hreports : reports c.story = (failures c.story).filter (·.2.isFatal) :=
    reports_eq_failures (harsh_run hb acts)
  refine ⟨fun hd => ?_, fun n hr hl hnone => ?_, fun active role frame i fault ht hi ho hf => ?_⟩
  · rw [← hreports]
    exact channel_run b acts hd
  · refine goes_on b acts hr hl fun fault hmem => ?_
    have hmem : (n, fault) ∈ reports c.story := hmem
    rw [hreports, List.mem_filter] at hmem
    have hfatal : fault.isFatal = true := hmem.2
    rw [hnone fault hmem.1] at hfatal
    cases hfatal
  · exact work_of_refusal ht hi ho hf

/-- The first frame is refused, and the second one is drawn. -/
theorem a_refused_frame_costs_one_frame :
    let refusal : Fault := .invalidBuffer (.zeroDimension ⟨0, 7⟩)
    let b : Backend Nat :=
      { upload s _ _ := ⟨s + 1, if s = 0 then .failed refusal else .done (), []⟩
        render s _ _ := ⟨s, .done .presented, []⟩ }
    let submit : Nat → List (Act Nat) := fun k =>
      [.approach 0 .secondary (pixel 9 9 9), .advance k, .advance k, .advance k, .advance k,
        .work, .work, .work]
    let acts := [.start onePixel (fun _ => ⟨.done 0, []⟩) (.steady 1), .work, .proceed] ++
      submit 0 ++ submit 1
    b.RefusesOnlyFrames ∧ failures (run b acts).story = [(0, refusal)] ∧
      refusal.isFatal = false ∧ (run b acts).world.faults ++ (run b acts).world.pending = [] ∧
      (run b acts).world.isStopping 0 = false ∧ (run b acts).world.session? = some 0 ∧
      (calls (workFor 0 (run b acts).story)).length = 3 := by
  intro refusal b submit acts
  have hb : b.RefusesOnlyFrames := by
    intro s ops stamp fault ho
    cases ho
  have hone : failures (run b acts).story = [(0, refusal)] := by decide +kernel
  have hfatal : refusal.isFatal = false := rfl
  have hleft : (run b acts).duty ≠ .left := by decide +kernel
  have hrunning : (run b acts).world.running = some 0 := by decide +kernel
  have hlistening : (run b acts).world.listening = true := by decide +kernel
  have hcalls : (calls (workFor 0 (run b acts).story)).length = 3 := by decide +kernel
  have hnone : ∀ fault, (0, fault) ∈ failures (run b acts).story → fault.isFatal = false := by
    intro fault hmem
    rw [hone] at hmem
    rw [(Prod.mk.inj (List.mem_singleton.mp hmem)).2]
    exact hfatal
  have hkept : ((failures (run b acts).story).filter (·.2.isFatal)).map Prod.snd = [] := by
    rw [hone]
    rfl
  obtain ⟨hchannel, hgoes, _⟩ := only_fatal_faults_end_a_session b hb acts
  obtain ⟨hflag, hserved⟩ := hgoes 0 hrunning hlistening hnone
  exact ⟨hb, hone, hfatal, (hchannel hleft).trans hkept, hflag, hserved, hcalls⟩

/-- A composite that is refused ends its session, although the fault is not fatal: the owner is told
of the fault, and the next frame is left out. -/
theorem a_refused_composite_ends_its_session :
    let refusal : Fault := .invalidBuffer (.zeroDimension ⟨0, 8⟩)
    let b : Backend Nat :=
      { upload s _ _ := ⟨s, .done (), []⟩
        render s _ _ := ⟨s + 1, if s = 0 then .failed refusal else .done .presented, []⟩ }
    let submit : Nat → List (Act Nat) := fun k =>
      [.approach 0 .secondary (pixel 9 9 9), .advance k, .advance k, .advance k, .advance k,
        .work, .work, .work]
    let acts := [.start onePixel (fun _ => ⟨.done 0, []⟩) (.steady 1), .work, .proceed] ++
      submit 0 ++ [.work] ++ submit 1
    let c := run b acts
    refusal.isFatal = false ∧ failures c.story = [(0, refusal)] ∧ c.world.faults = [refusal] ∧
      c.world.running = some 0 ∧ c.world.isStopping 0 = true ∧
      (calls (workFor 0 c.story)).length = 2 := by
  decide +kernel

end Course

end PictureInPicture
