-- What the thread does for a session is what its loop does alone with the frames that were taken
-- out of the slots, round after round, whoever else is about.
import PictureInPicture.Proofs.Session.Vetting

namespace PictureInPicture

variable {σ : Type} {b : Backend σ}

namespace Event

/-- It belongs to a round of the loop, as the calls of a backend and their effects do. -/
def isRound : Event → Bool
  | create _ => false
  | drop => false
  | effect (.notice _) => false
  | _ => true

/-- The frame that is taken out of its slot. -/
def taking? : Event → Option (Role × Frame)
  | call (.upload role frame) => some (role, frame)
  | _ => none

theorem filter_rounds_notices (notices : List Notice) :
    (notices.map notice).filter isRound = [] := by
  simp [List.filter_eq_nil_iff, isRound, notice]

theorem filterMap_rounds {β : Type} {f : Event → Option β}
    (hf : ∀ e, e.isRound = false → f e = none) (events : List Event) :
    (events.filter isRound).filterMap f = events.filterMap f := by
  rw [List.filterMap_filter]
  congr 1
  funext e
  cases he : e.isRound with
  | true => simp
  | false => simp [hf e he]

end Event

/-- The frames of a session that were taken out of their slots, in their order. -/
def takings (n : Nat) (story : List Happening) : List (Role × Frame) :=
  (workFor n story).filterMap Event.taking?

/-- A frame was taken when its upload began. -/
theorem mem_takings {n : Nat} {role : Role} {frame : Frame} {story : List Happening} :
    (role, frame) ∈ takings n story ↔ .call (.upload role frame) ∈ workFor n story := by
  unfold takings
  rw [List.mem_filterMap]
  constructor
  · rintro ⟨event, hevent, htaking⟩
    cases event with
    | call call =>
      cases call with
      | upload =>
        cases htaking
        exact hevent
      | render => cases htaking
    | create | uploaded | rendered | effect | drop => cases htaking
  · intro hevent
    exact ⟨_, hevent, rfl⟩

/-- The frame of the session that the thread has taken and not dealt with. -/
def World.inHand (w : World σ) (n : Nat) : List (Role × Frame) :=
  match w.thread with
  | .uploading active role frame => if active.session = n then [(role, frame)] else []
  | _ => []

/-- What a backend that was asked for has done before its first round. -/
def Terms.opening (t : Terms σ) : List Event :=
  ((t.factory t.config).effects.map .effect).filter Event.isRound

/-! ## Rounds of a loop -/

/-- A loop that has gone round with some frames, and what happened. -/
inductive Loop.Rounds (b : Backend σ) (start : Loop σ) :
    List (Role × Frame) → List Event → Loop σ → Prop where
  | rest : Rounds b start [] [] start
  | turn {taken events l role frame turn} (i : Inbox) (h : Rounds b start taken events l)
      (hp : Loop.Processes b l i role frame turn) :
      Rounds b start (taken ++ [(role, frame)])
        (events ++ .call (.upload role frame) :: turn.events) turn.loop

/-- The frames of the rounds are those that were taken. -/
theorem Loop.takings_rounds {start l : Loop σ} {taken : List (Role × Frame)} {events : List Event}
    (h : Loop.Rounds b start taken events l) : events.filterMap Event.taking? = taken := by
  induction h with
  | rest => rfl
  | @turn taken events l role frame turn i _ hp ih =>
    have hquiet : turn.events.filterMap Event.taking? = [] := by
      refine List.filterMap_eq_nil_iff.mpr fun e he => ?_
      cases hm : e.isMilestone with
      | true =>
        have hmem := List.mem_filter.mpr ⟨he, hm⟩
        rw [Loop.processes_milestones hp] at hmem
        rw [List.mem_singleton.mp hmem]
        rfl
      | false =>
        cases e with
        | call call =>
          cases call with
          | upload => cases hm
          | render => rfl
        | _ => rfl
    rw [List.filterMap_append, List.filterMap_cons, ih, hquiet]
    rfl

namespace Course

variable {c c' : Course σ} {n : Nat} {t : Terms σ}

/-! ## The thread goes round for a session -/

/-- The start of the session does not wait for the thread. -/
def Unasked (c : Course σ) (n : Nat) : Prop :=
  ∀ config factory clock, .start n config factory clock ∉ c.world.queue

/-- What the thread has done for a session: nothing yet, it got no backend for it, or its loop has
gone round with the frames that were taken. -/
inductive Stands (b : Backend σ) (c : Course σ) (n : Nat) (t : Terms σ) : Prop where
  | ahead (hs : c.world.session? ≠ some n) (hw : workFor n c.story = [])
  | declined (hs : c.world.session? ≠ some n) (hq : c.Unasked n)
      (hw : (workFor n c.story).filter Event.isRound = t.opening)
  | goes {backend taken events l} (hb : (t.factory t.config).outcome = .done backend)
      (hr : Loop.Rounds b (.ofConfig t.config t.clock backend) taken events l)
      (hl : ∀ active, c.world.active? = some active → active.session = n → active.loop = l)
      (hq : c.Unasked n)
      (hw : (workFor n c.story).filter Event.isRound = t.opening ++ events.filter Event.isRound ++
        (c.world.inHand n).map fun x => .call (.upload x.1 x.2))

theorem stands_still (hc : Stands b c n t) (ht : c'.world.thread = c.world.thread)
    (hw : workFor n c'.story = workFor n c.story) (hq : c.Unasked n → c'.Unasked n) :
    Stands b c' n t := by
  have ha : c'.world.active? = c.world.active? := by
    unfold World.active?
    rw [ht]
  have hs : c'.world.session? = c.world.session? := by
    unfold World.session?
    rw [ha]
  have hh : c'.world.inHand n = c.world.inHand n := by
    unfold World.inHand
    rw [ht]
  cases hc with
  | ahead hs' hw' => exact .ahead (hs ▸ hs') (hw.trans hw')
  | declined hs' hq' hw' => exact .declined (hs ▸ hs') (hq hq') (hw ▸ hw')
  | goes hb hr hl hq' hw' =>
    refine .goes hb hr (ha ▸ hl) (hq hq') ?_
    rw [hw, hh]
    exact hw'

/-! ### The thread goes on -/

/-- The thread takes tasks out of the queue, and adds none. -/
theorem queue_works {w w' : World σ} {events : List Event} (hw : World.Works b w w' events)
    {task : Task σ} (hq : task ∈ w'.queue) : task ∈ w.queue := by
  cases hw with
  | serve _ _ hq' | decline _ _ hq' | ignore _ hq' | discard _ hq' | heed _ hq' | halt _ hq'
  | release _ _ hq' =>
    rw [hq']
    exact List.mem_cons_of_mem _ hq
  | collapse | shutdown | crash => cases hq
  | _ => exact hq

theorem inHand_of_stranger {w : World σ} (hs : w.session? ≠ some n) : w.inHand n = [] := by
  unfold World.inHand
  split
  · rename_i active role frame ht
    rw [if_neg]
    rintro rfl
    exact hs (by simp [World.session?, World.active?, ht])
  · rfl

/-- What the thread does on its way to a session is done for this session. -/
theorem focus_of_works (h : Sound c) {world : World σ} {events : List Event}
    (hw : World.Works b c.world world events) (hn : world.session? = some n) :
    c.world.focus = some n := by
  cases hw with
  | @serve _ active queue session config factory clock backend ht hq =>
    have hnone := (asked_of_start h hq).2.2.1
    cases active with
    | none =>
      unfold World.focus
      rw [ht, hq]
      exact hn
    | some active => simp [World.session?, World.active?, ht] at hnone
  | rest | decline | ignore | halt => exact focus_of_session hn
  | discard | heed | miss | reach | lose | finish | fail | report =>
    refine focus_of_session ?_
    simp_all [World.session?, World.active?, World.reportFault]
  | collapse | release | shutdown | crash => simp [World.session?, World.active?] at hn

section

variable {world : World σ} {events : List Event}

/-- A session that the thread draws for goes its rounds. -/
theorem goes_of_active (hc : Stands b c n t) {active : Active σ}
    (ha : c.world.active? = some active) (hn : active.session = n) :
    ∃ backend taken events, (t.factory t.config).outcome = .done backend ∧
      Loop.Rounds b (.ofConfig t.config t.clock backend) taken events active.loop ∧
      c.Unasked n ∧
      (workFor n c.story).filter Event.isRound = t.opening ++ events.filter Event.isRound ++
        (c.world.inHand n).map fun x => .call (.upload x.1 x.2) := by
  have hs : c.world.session? = some n := by
    unfold World.session?
    rw [ha, ← hn]
    rfl
  cases hc with
  | ahead hne => exact absurd hs hne
  | declined hne => exact absurd hs hne
  | @goes backend taken events l hb hr hl hq hw =>
    refine ⟨backend, taken, events, hb, ?_, hq, hw⟩
    rw [hl active ha hn]
    exact hr

theorem unasked_works (hw : World.Works b c.world world events) (hq : c.Unasked n)
    (told : List (Nat × Role)) (story : List Happening) :
    Unasked { c with world, told, story } n :=
  fun config factory clock hmem => hq config factory clock (queue_works hw hmem)

/-- What the thread does for others is no round of the session. -/
theorem stands_stranger (h : Sound c) (hc : Stands b c n t)
    (hw : World.Works b c.world world events) (hf : c.world.focus ≠ some n)
    (told : List (Nat × Role)) :
    Stands b
      { c with world, told, story := c.story ++ events.map (.worked c.world.focus) } n t := by
  have hbefore : c.world.session? ≠ some n := fun hs => hf (focus_of_session hs)
  have hafter : world.session? ≠ some n := fun hs => hf (focus_of_works h hw hs)
  have hwork : workFor n (c.story ++ events.map (.worked c.world.focus)) = workFor n c.story := by
    rw [workFor_append, workFor_worked, if_neg hf, List.append_nil]
  cases hc with
  | ahead _ hnone => exact .ahead hafter (hwork.trans hnone)
  | declined _ hq hrounds =>
    refine .declined hafter (unasked_works hw hq _ _) ?_
    rw [hwork]
    exact hrounds
  | goes hb hr _ hq hrounds =>
    refine .goes hb hr (fun active ha hn => ?_) (unasked_works hw hq _ _) ?_
    · refine absurd ?_ hafter
      unfold World.session?
      rw [ha, ← hn]
      rfl
    · change _ = _ ++ (world.inHand n).map _
      rw [hwork, inHand_of_stranger hafter, hrounds, inHand_of_stranger hbefore]

/-- The thread does something for the session that is no round. -/
theorem stands_quiet (hc : Stands b c n t) (hw : World.Works b c.world world events)
    {active : Active σ} (ha : c.world.active? = some active) (hn : active.session = n)
    (hquiet : events.filter Event.isRound = []) (hh : world.inHand n = c.world.inHand n)
    (hl : ∀ active', world.active? = some active' → active' = active)
    (told : List (Nat × Role)) :
    Stands b
      { c with world, told, story := c.story ++ events.map (.worked (some n)) } n t := by
  obtain ⟨backend, taken, rounds, hb, hr, hq, hrounds⟩ := goes_of_active hc ha hn
  refine .goes hb hr (fun active' ha' _ => ?_) (unasked_works hw hq _ _) ?_
  · rw [hl active' ha']
  · change _ = _ ++ (world.inHand n).map _
    rw [workFor_append, workFor_worked, if_pos rfl, List.filter_append, hquiet, List.append_nil, hh]
    exact hrounds

/-- The thread takes a frame out of its slot. -/
theorem stands_reach (hc : Stands b c n t) (hw : World.Works b c.world world events)
    {active : Active σ} {role : Role} {frame : Frame} (hn : active.session = n)
    (ht : c.world.thread = .reaching active role)
    (ht' : world.thread = .uploading active role frame)
    (hevents : events = [.call (.upload role frame)]) (told : List (Nat × Role)) :
    Stands b
      { c with world, told, story := c.story ++ events.map (.worked (some n)) } n t := by
  have ha : c.world.active? = some active := by simp [World.active?, ht]
  have hbefore : c.world.inHand n = [] := by simp [World.inHand, ht]
  have hafter : world.inHand n = [(role, frame)] := by simp [World.inHand, ht', hn]
  obtain ⟨backend, taken, rounds, hb, hr, hq, hrounds⟩ := goes_of_active hc ha hn
  refine .goes hb hr (fun active' ha' _ => ?_) (unasked_works hw hq _ _) ?_
  · simp only [World.active?, ht', Option.some.injEq] at ha'
    rw [ha']
  · change _ = _ ++ (world.inHand n).map _
    rw [workFor_append, workFor_worked, if_pos rfl, List.filter_append, hrounds, hbefore, hafter,
      hevents, List.map_nil, List.append_nil]
    rfl

/-- A round comes to its end. -/
theorem stands_turn (hc : Stands b c n t) (hw : World.Works b c.world world events)
    {active : Active σ} {role : Role} {frame : Frame} {inbox : Inbox} (hn : active.session = n)
    (ht : c.world.thread = .uploading active role frame) (hh : world.inHand n = [])
    {closing : List Event}
    (hevents : events = (active.loop.process b inbox role frame).events ++ closing)
    (hquiet : closing.filter Event.isRound = [])
    (hl : ∀ active', world.active? = some active' →
      active'.loop = (active.loop.process b inbox role frame).loop) (told : List (Nat × Role)) :
    Stands b
      { c with world, told, story := c.story ++ events.map (.worked (some n)) } n t := by
  have ha : c.world.active? = some active := by simp [World.active?, ht]
  have hbefore : c.world.inHand n = [(role, frame)] := by simp [World.inHand, ht, hn]
  obtain ⟨backend, taken, rounds, hb, hr, hq, hrounds⟩ := goes_of_active hc ha hn
  have hnext := hr.turn inbox (Loop.process_processes b active.loop inbox role frame)
  refine .goes hb hnext (fun active' ha' _ => hl active' ha') (unasked_works hw hq _ _) ?_
  change _ = _ ++ (world.inHand n).map _
  rw [workFor_append, workFor_worked, if_pos rfl, List.filter_append, hrounds, hbefore, hh, hevents,
    List.filter_append, hquiet, List.filter_append, List.filter_cons]
  simp [Event.isRound]

/-- The thread is done with the start of the session. -/
theorem opening_of_start (h : Sound c) (ht : c.terms[n]? = some t) {session config factory clock}
    {queue : List (Task σ)} (hq : c.world.queue = .start session config factory clock :: queue)
    (hf : c.world.focus = some n) :
    session = n ∧ config = t.config ∧ factory = t.factory ∧ clock = t.clock ∧
      c.world.session? = none ∧
      ∀ config factory clock, Task.start n config factory clock ∉ queue := by
  obtain ⟨_, ht', hnone, _⟩ := asked_of_start h hq
  have hsame : session = n := by
    unfold World.focus at hf
    split at hf
    · rename_i hq'
      rw [hq] at hq'
      cases hq'
      exact Option.some.inj hf
    · rw [hnone] at hf
      cases hf
  subst hsame
  obtain rfl := Option.some.inj (ht.symm.trans ht')
  refine ⟨rfl, rfl, rfl, rfl, hnone, fun config factory clock hmem => ?_⟩
  have hkept : Task.start session config factory clock ∈ queue.filter (·.role?.isNone) :=
    List.mem_filter.mpr ⟨hmem, rfl⟩
  rw [(Footing.starting_of_orders h.agrees (footing_orders hq rfl)).1] at hkept
  cases hkept

/-- Before the thread is done with its start, nothing was done for the session. -/
theorem ahead_of_start (hc : Stands b c n t) {config factory clock} {queue : List (Task σ)}
    (hq : c.world.queue = .start n config factory clock :: queue) : workFor n c.story = [] := by
  have hasked : ¬c.Unasked n := by
    intro hno
    refine hno config factory clock ?_
    rw [hq]
    exact List.mem_cons_self
  cases hc with
  | ahead _ hw => exact hw
  | declined _ hno => exact absurd hno hasked
  | goes _ _ _ hno => exact absurd hno hasked

theorem filter_rounds_opening {config : Config Float32} {factory : Factory σ}
    {effects : List Effect}
    (he : ∃ notices : List Notice, effects = (factory config).effects ++ notices.map .notice)
    (output : Size) :
    (Event.create output :: effects.map .effect).filter Event.isRound =
      (((factory config).effects).map .effect).filter Event.isRound := by
  obtain ⟨notices, rfl⟩ := he
  have hnotices : ((notices.map Effect.notice).map Event.effect).filter Event.isRound = [] := by
    rw [List.map_map]
    exact Event.filter_rounds_notices notices
  rw [List.filter_cons, List.map_append, List.filter_append, hnotices, List.append_nil]
  rfl

theorem stands_work (h : Sound c) (ht : c.terms[n]? = some t) (hc : Stands b c n t)
    (hw : World.Works b c.world world events) (told : List (Nat × Role)) :
    Stands b
      { c with world, told, story := c.story ++ events.map (.worked c.world.focus) } n t := by
  by_cases hf : c.world.focus = some n
  swap
  · exact stands_stranger h hc hw hf told
  have idle : c.world.session? = none → (∀ task queue, c.world.queue = task :: queue →
      task.isStart = false) → False := by
    intro hnone hstart
    unfold World.focus at hf
    split at hf
    · rename_i hq
      cases hstart _ _ hq
    · rw [hnone] at hf
      cases hf
  have active : ∀ {active : Active σ}, c.world.active? = some active → active.session = n := by
    intro active ha
    have hs : c.world.session? = some active.session := by simp [World.session?, ha]
    exact Option.some.inj ((focus_of_session hs).symm.trans hf)
  rw [hf]
  have hw' := hw
  cases hw with
  | rest =>
    refine stands_still hc rfl ?_ fun hq => hq
    exact congrArg (workFor n) (List.append_nil c.story)
  | @serve effects _ queue session config factory clock backend hi hq hm he =>
    obtain ⟨rfl, rfl, rfl, rfl, hnone, hrest⟩ := opening_of_start h ht hq hf
    refine .goes hm .rest (fun active' ha' _ => ?_) hrest ?_
    · cases ha'
      rfl
    · rw [workFor_append, ahead_of_start hc hq, workFor_worked, if_pos rfl]
      exact (filter_rounds_opening he _).trans (by simp [Terms.opening, World.inHand])
  | @decline effects _ queue session config factory clock fault hi hq hm he =>
    obtain ⟨rfl, rfl, rfl, rfl, hnone, hrest⟩ := opening_of_start h ht hq hf
    refine .declined ?_ hrest ?_
    · change c.world.session? ≠ _
      rw [hnone]
      exact (Option.some_ne_none _).symm
    · rw [workFor_append, ahead_of_start hc hq, workFor_worked, if_pos rfl]
      exact filter_rounds_opening he _
  | @collapse effects _ queue session config factory clock crash hi hq hm he =>
    obtain ⟨rfl, rfl, rfl, rfl, hnone, hrest⟩ := opening_of_start h ht hq hf
    refine .declined (Option.some_ne_none _).symm (fun _ _ _ hmem => by cases hmem) ?_
    rw [workFor_append, ahead_of_start hc hq, workFor_worked, if_pos rfl]
    exact filter_rounds_opening he _
  | ignore hi hq | halt hi hq =>
    refine (idle (by simp [World.session?, World.active?, hi]) fun task queue hq' => ?_).elim
    rw [hq] at hq'
    cases hq'
    rfl
  | @discard a _ _ hi hq | @heed a _ _ hi hq =>
    have ha : c.world.active? = some a := by simp [World.active?, hi]
    refine stands_quiet hc hw' ha (active ha) rfl ?_ ?_ told
    · simp [World.inHand, hi]
    · simp [World.active?, hi]
  | @miss a _ hi | @report a _ hi =>
    have ha : c.world.active? = some a := by simp [World.active?, hi]
    refine stands_quiet hc hw' ha (active ha) rfl ?_ ?_ told
    · simp [World.inHand, hi, World.reportFault]
    · simp [World.active?, World.reportFault]
  | @release notices a _ hi hq =>
    have ha : c.world.active? = some a := by simp [World.active?, hi]
    refine stands_quiet hc hw' ha (active ha) ?_ ?_ ?_ told
    · exact Event.filter_rounds_notices notices
    · simp [World.inHand, hi]
    · simp [World.active?]
  | @shutdown a _ hi hq =>
    cases a with
    | none =>
      refine (idle (by simp [World.session?, World.active?, hi]) fun task queue hq' => ?_).elim
      rw [hq] at hq'
      cases hq'
      rfl
    | some a =>
      have ha : c.world.active? = some a := by simp [World.active?, hi]
      refine stands_quiet hc hw' ha (active ha) rfl ?_ ?_ told
      · simp [World.inHand, hi]
      · simp [World.active?]
  | @reach a role frame hi hs =>
    have ha : c.world.active? = some a := by simp [World.active?, hi]
    exact stands_reach hc hw' (active ha) hi rfl rfl told
  | @lose a role frame hi hnone =>
    have hlt := h.session_lt a.session (by simp [World.session?, World.active?, hi])
    simp [World.inbox?, hlt] at hnone
  | @finish a role frame inbox attempt hi hin ho =>
    have ha : c.world.active? = some a := by simp [World.active?, hi]
    refine stands_turn hc hw' (active ha) hi ?_ (List.append_nil _).symm rfl ?_ told
    · simp [World.inHand]
    · intro a' ha'
      cases ha'
      rfl
  | @fail a role frame inbox fault hi hin ho =>
    have ha : c.world.active? = some a := by simp [World.active?, hi]
    refine stands_turn hc hw' (active ha) hi ?_ rfl rfl ?_ told
    · simp [World.inHand]
    · intro a' ha'
      cases ha'
      rfl
  | @crash a role frame inbox crash hi hin ho =>
    have ha : c.world.active? = some a := by simp [World.active?, hi]
    refine stands_turn hc hw' (active ha) hi ?_ rfl rfl ?_ told
    · simp [World.inHand]
    · simp [World.active?]

end

/-! ### All sessions -/

/-- What the thread does is done for a session that was asked for. -/
theorem term_of_focus (h : Sound c) (hf : c.world.focus = some n) : ∃ t, c.terms[n]? = some t := by
  unfold World.focus at hf
  split at hf
  · rename_i hq
    cases hf
    exact ⟨_, (asked_of_start h hq).2.1⟩
  · have hlt := h.session_lt n hf
    rw [← h.terms_length] at hlt
    exact ⟨c.terms[n], List.getElem?_eq_getElem hlt⟩

/-- The owner posts the start of a session as it asks for the session. -/
theorem unasked_manages (hm : Manages c c') (hn : n < c.world.inboxes.length)
    (hq : c.Unasked n) : c'.Unasked n := by
  intro config factory clock hmem
  have posted : ∀ {task : Task σ}, task.isStart = false →
      Task.start n config factory clock ∈ (c.world.post task).queue → False := by
    intro task htask hpost
    unfold World.post at hpost
    split at hpost
    · rcases List.mem_append.mp hpost with hold | hlast
      · exact hq _ _ _ hold
      · rw [← List.mem_singleton.mp hlast] at htask
        cases htask
    · exact hq _ _ _ hpost
  cases hm with
  | refuseStart | leave | loseStart | failStart | grant | close | depart | startUnheard | raise =>
    exact hq _ _ _ hmem
  | start =>
    rcases List.mem_append.mp hmem with hold | hlast
    · exact hq _ _ _ hold
    · cases List.mem_singleton.mp hlast
      exact absurd hn (Nat.lt_irrefl _)
  | askStop | askEnd => exact posted rfl hmem

/-- Every session stands somewhere, and nothing was done for one that nobody has asked for. -/
structure Staged (b : Backend σ) (c : Course σ) : Prop where
  nobody : ∀ n, c.terms[n]? = none → workFor n c.story = []
  stands : ∀ n t, c.terms[n]? = some t → Stands b c n t

theorem staged_still (hc : Staged b c) (hterms : c'.terms = c.terms)
    (hthread : c'.world.thread = c.world.thread)
    (hwork : ∀ n, workFor n c'.story = workFor n c.story)
    (hq : ∀ n, n < c.terms.length → c.Unasked n → c'.Unasked n) : Staged b c' := by
  refine ⟨fun n hn => ?_, fun n t ht => ?_⟩
  · rw [hwork]
    exact hc.nobody n (hterms ▸ hn)
  · rw [hterms] at ht
    exact stands_still (hc.stands n t ht) hthread (hwork n)
      (hq n (List.getElem?_eq_some_iff.mp ht).1)

theorem staged_work (h : Sound c) (hc : Staged b c) {world : World σ} {events : List Event}
    (hw : World.Works b c.world world events) (told : List (Nat × Role)) :
    Staged b
      { c with world, told, story := c.story ++ events.map (.worked c.world.focus) } := by
  refine ⟨fun n hn => ?_, fun n t ht => stands_work h ht (hc.stands n t ht) hw told⟩
  have hf : c.world.focus ≠ some n := by
    intro hf
    obtain ⟨t, ht⟩ := term_of_focus h hf
    exact absurd (ht.symm.trans hn) (Option.some_ne_none _)
  rw [workFor_append, workFor_worked, if_neg hf, List.append_nil]
  exact hc.nobody n hn

theorem staged_manages (h : Sound c) (hm : Manages c c') (hc : Staged b c) : Staged b c' := by
  have hspare := spares_manages hm
  obtain ⟨new, hstory, hnew⟩ := hspare.story
  have hwork : ∀ n, workFor n c'.story = workFor n c.story := by
    intro n
    rw [hstory, workFor_append, workFor_orders hnew, List.append_nil]
  have hq : ∀ n, n < c.terms.length → c.Unasked n → c'.Unasked n := by
    intro n hn
    rw [h.terms_length] at hn
    exact unasked_manages hm hn
  rcases terms_moves (b := b) (.owner hm) with hterms | ⟨more, hterms⟩
  · exact staged_still hc hterms hspare.thread hwork hq
  · refine ⟨fun n hn => ?_, fun n t ht => ?_⟩
    · rw [hwork]
      refine hc.nobody n (List.getElem?_eq_none ?_)
      have hle := List.getElem?_eq_none_iff.mp hn
      rw [hterms, List.length_append] at hle
      omega
    · by_cases hlt : n < c.terms.length
      · rw [hterms, List.getElem?_append_left hlt] at ht
        exact stands_still (hc.stands n t ht) hspare.thread (hwork n) (hq n hlt)
      · refine .ahead (fun hs => ?_) ?_
        · have hs' : c.world.session? = some n :=
            (World.session?_of_thread hspare.thread).symm.trans hs
          rw [h.terms_length] at hlt
          exact hlt (h.session_lt n hs')
        · rw [hwork]
          exact hc.nobody n (List.getElem?_eq_none (Nat.le_of_not_lt hlt))

theorem staged_moves (h : Sound c) (hm : Moves b c c') (hc : Staged b c) : Staged b c' := by
  have tale : ∀ (e : Errand) (stage : Errand.Stage) (n : Nat),
      workFor n (c.story ++ e.tale stage) = workFor n c.story := by
    intro e stage n
    rw [workFor_append, workFor_asides (asides_tale e stage), List.append_nil]
  cases hm with
  | accept | refuse | park | confirm | overtake | replace | unheard | withdraw =>
    exact staged_still hc rfl rfl (tale _ _) fun n _ hq => hq
  | tell =>
    refine staged_still hc rfl rfl (tale _ _) fun n _ hq config factory clock hmem => ?_
    rcases List.mem_append.mp hmem with hold | hlast
    · exact hq _ _ _ hold
    · cases List.mem_singleton.mp hlast
  | turnAway =>
    refine staged_still hc rfl rfl (fun n => ?_) fun n _ hq => hq
    rw [workFor_append]
    exact List.append_nil _
  | approach => exact staged_still hc rfl rfl (fun _ => rfl) fun n _ hq => hq
  | work hw => exact staged_work h hc hw _
  | owner hm => exact staged_manages h hm hc

theorem staged_new : Staged b (new σ) :=
  ⟨fun n _ => rfl, fun n t ht => by simp [new] at ht⟩

theorem staged_run (b : Backend σ) (acts : List (Act σ)) : Staged b (run b acts) :=
  sound_run_induction b acts staged_new fun _ _ h hc hm => staged_moves h hm hc

theorem takings_eq (n : Nat) (story : List Happening) :
    takings n story = ((workFor n story).filter Event.isRound).filterMap Event.taking? := by
  refine (Event.filterMap_rounds (fun e he => ?_) _).symm
  cases e <;> first | rfl | cases he

theorem takings_opening (t : Terms σ) : t.opening.filterMap Event.taking? = [] := by
  refine List.filterMap_eq_nil_iff.mpr fun e he => ?_
  obtain ⟨effect, _, rfl⟩ := List.mem_map.mp (List.mem_filter.mp he).1
  rfl

/-- Whatever happens, the thread does for a session what its loop does with the frames that were
taken out of the slots, one after the other. A session that got no backend has had none. -/
theorem rounds_of_run (b : Backend σ) (acts : List (Act σ)) {n : Nat} {t : Terms σ}
    (ht : (run b acts).terms[n]? = some t) :
    let c := run b acts
    let work := (workFor n c.story).filter Event.isRound
    takings n c.story = [] ∧ c.world.inHand n = [] ∧ (work = [] ∨ work = t.opening) ∨
    ∃ backend taken events l, (t.factory t.config).outcome = .done backend ∧
      Loop.Rounds b (.ofConfig t.config t.clock backend) taken events l ∧
      takings n c.story = taken ++ c.world.inHand n ∧
      work = t.opening ++ events.filter Event.isRound ++
        (c.world.inHand n).map fun x => .call (.upload x.1 x.2) := by
  intro c work
  have htakings : takings n c.story = work.filterMap Event.taking? := takings_eq n c.story
  cases (staged_run b acts).stands n t ht with
  | ahead hs hw =>
    have hwork : work = [] := congrArg (List.filter Event.isRound) hw
    refine .inl ⟨?_, inHand_of_stranger hs, .inl hwork⟩
    rw [htakings, hwork]
    rfl
  | declined hs _ hw =>
    refine .inl ⟨?_, inHand_of_stranger hs, .inr hw⟩
    rw [htakings]
    exact (congrArg _ hw).trans (takings_opening t)
  | @goes backend taken events l hb hr _ _ hw =>
    refine .inr ⟨backend, taken, events, l, hb, hr, ?_, hw⟩
    have hevents : (events.filter Event.isRound).filterMap Event.taking? = taken := by
      rw [Event.filterMap_rounds (fun e he => by cases e <;> first | rfl | cases he)]
      exact Loop.takings_rounds hr
    have hhand : ((c.world.inHand n).map fun x => Event.call (.upload x.1 x.2)).filterMap
        Event.taking? = c.world.inHand n := by
      rw [List.filterMap_map]
      exact List.filterMap_some
    rw [htakings]
    refine (congrArg _ hw).trans ?_
    rw [List.filterMap_append, List.filterMap_append, takings_opening, hevents, hhand]
    rfl

end Course

end PictureInPicture
