-- What the thread writes into the state of a session: the flags of fresh sources, and how many
-- uploads and composites there were. All of it can be read off what was done for the session.
import PictureInPicture.Proofs.Session.Faults

namespace PictureInPicture

variable {σ : Type} {b : Backend σ}

/-! ## What is read off -/

/-- What a session shows of its uploads and composites. -/
structure Record where
  fresh : Both Bool
  uploaded : Both Nat
  rendered : Nat
  skipped : Nat
  deriving DecidableEq, Repr

/-- The record of a session that has done nothing. -/
def Record.blank : Record := ⟨.twice false, .twice 0, 0, 0⟩

/-- The record after an event. -/
def Record.enter (r : Record) : Event → Record
  | .uploaded role (.done ()) =>
    { r with fresh := r.fresh.set role true, uploaded := r.uploaded.modify role (· + 1) }
  | .rendered _ (.done .presented) => { r with fresh := .twice false, rendered := r.rendered + 1 }
  | .rendered _ (.done .skipped) => { r with skipped := r.skipped + 1 }
  | _ => r

namespace Inbox

/-- What the state of a session says of its uploads and composites. -/
def record (i : Inbox) : Record := ⟨i.fresh, i.inlets.map (·.stats.uploaded), i.rendered, i.skipped⟩

@[simp] theorem record_requestStop (i : Inbox) : i.requestStop.record = i.record := rfl

/-- An inlet that keeps its flag and its count of uploads keeps the record. -/
theorem record_modifyInlet {f : Inlet → Inlet} (i : Inbox) (r : Role)
    (hfresh : ∀ inlet, (f inlet).fresh = inlet.fresh)
    (huploaded : ∀ inlet, (f inlet).stats.uploaded = inlet.stats.uploaded) :
    (i.modifyInlet r f).record = i.record := by
  cases r <;> simp [record, fresh, modifyInlet, Both.map, Both.modify, Both.set, Both.get, hfresh,
    huploaded]

theorem record_withdraw (i : Inbox) (r : Role) : (i.withdraw r).record = i.record :=
  record_modifyInlet i r (fun _ => rfl) fun _ => rfl

theorem record_park (i : Inbox) (r : Role) (frame : Frame) : (i.park r frame).record = i.record :=
  record_modifyInlet i r (fun _ => rfl) fun _ => rfl

theorem record_clearSlots (i : Inbox) : i.clearSlots.record = i.record :=
  (record_withdraw _ _).trans (record_withdraw i _)

theorem record_countDropped (i : Inbox) (r : Role) : (i.countDropped r).record = i.record :=
  record_modifyInlet i r (fun _ => rfl) fun _ => rfl

theorem record_countRejected (i : Inbox) (r : Role) : (i.countRejected r).record = i.record :=
  record_modifyInlet i r (fun _ => rfl) fun _ => rfl

theorem record_upload (i : Inbox) (r : Role) :
    ((i.markFresh r).countUploaded r).record = i.record.enter (.uploaded r (.done ())) := by
  cases r <;> rfl

theorem record_present (i : Inbox) (stamp : Stamp) :
    i.clearFresh.countRendered.record = i.record.enter (.rendered stamp (.done .presented)) := rfl

theorem record_skip (i : Inbox) (stamp : Stamp) :
    i.countSkipped.record = i.record.enter (.rendered stamp (.done .skipped)) := rfl

end Inbox

namespace Event

/-- It is part of a turn of the loop: an upload ends, or a composite is drawn. -/
def isTurn : Event → Bool
  | uploaded .. => true
  | rendered .. => true
  | call (.render ..) => true
  | _ => false

theorem not_turn_effects (effects : List Effect) : ∀ e ∈ effects.map effect, e.isTurn = false := by
  intro e he
  obtain ⟨effect, _, rfl⟩ := List.mem_map.mp he
  rfl

theorem not_turn_notices (notices : List Notice) : ∀ e ∈ notices.map notice, e.isTurn = false := by
  intro e he
  obtain ⟨notice, _, rfl⟩ := List.mem_map.mp he
  rfl

end Event

namespace Record

/-- What is no part of a turn is not recorded. -/
theorem enter_of_not_turn {e : Event} (he : e.isTurn = false) (r : Record) : r.enter e = r := by
  cases e <;> first | rfl | cases he

theorem entered_of_not_turn {events : List Event} (h : ∀ e ∈ events, e.isTurn = false)
    (r : Record) : events.foldl enter r = r := by
  induction events with
  | nil => rfl
  | cons e events ih =>
    rw [List.foldl_cons, enter_of_not_turn (h e List.mem_cons_self)]
    exact ih fun e' he' => h e' (List.mem_cons_of_mem _ he')

end Record

namespace Loop

/-! ## A turn of the loop -/

section

variable {l : Loop σ} {i : Inbox} {role : Role} {frame : Frame}

theorem entered_drawing (r : Record) :
    (l.drawing b).foldl Record.enter r =
      r.enter (.rendered l.clock.sample.1 (l.nextReply b).outcome) := by
  unfold drawing
  rw [List.foldl_cons, List.foldl_append, Record.entered_of_not_turn (Event.not_turn_effects _)]
  rfl

theorem record_draws {turn : Turn σ Attempt} (h : Draws b l i turn) :
    turn.inbox.record = turn.events.foldl Record.enter i.record := by
  cases h with
  | withhold => rfl
  | present _ ho =>
    rw [List.foldl_append, entered_drawing, ho,
      Record.entered_of_not_turn (Event.not_turn_notices _)]
    exact Inbox.record_present i _
  | skip _ ho =>
    rw [List.foldl_append, entered_drawing, ho]
    exact Inbox.record_skip i l.clock.sample.1
  | fail _ ho | crash _ ho =>
    rw [entered_drawing, ho]
    rfl

theorem entered_uploading (r : Record) :
    (l.uploading b role frame).foldl Record.enter r =
      r.enter (.uploaded role (b.upload l.backend role frame).outcome) := by
  unfold uploading
  rw [List.foldl_append, Record.entered_of_not_turn (Event.not_turn_effects _)]
  rfl

/-- A turn writes down what it does. -/
theorem record_processes {turn : Turn σ (Option Attempt)} (h : Processes b l i role frame turn) :
    turn.inbox.record = turn.events.foldl Record.enter i.record := by
  cases h with
  | fail ho | crash ho =>
    rw [entered_uploading, ho]
    rfl
  | reject ho =>
    rw [List.foldl_append, entered_uploading, ho]
    exact Inbox.record_countRejected i role
  | store ho _ hd =>
    rw [List.foldl_append, List.foldl_append, entered_uploading, ho,
      Record.entered_of_not_turn (Event.not_turn_notices _), record_draws hd, Inbox.record_upload]

end

end Loop

namespace World

/-! ## A step of the thread -/

/-- The thread comes to the end of an upload. A turn that is not done ends its session, or the
thread as well. -/
structure Closes (b : Backend σ) (w w' : World σ) (events : List Event) (active : Active σ)
    (role : Role) (frame : Frame) (i : Inbox) : Prop where
  thread : w.thread = .uploading active role frame
  inbox : w.inbox? active.session = some i
  events : ∃ closing, events = (active.loop.process b i role frame).events ++ closing ∧
    ∀ e ∈ closing, e.isTurn = false
  own : ∃ i', w'.inbox? active.session = some i' ∧
    i'.record = (active.loop.process b i role frame).inbox.record
  others : ∀ n, active.session ≠ n → w'.inbox? n = w.inbox? n
  away : w'.busy? = none
  failed : (active.loop.process b i role frame).outcome.isFailed = true →
    w'.isStopping active.session = true
  crashed : (active.loop.process b i role frame).outcome.isCrashed = true → w'.listening = false

section

variable {w w' : World σ} {events : List Event}

theorem focus_of_closes {active : Active σ} {role : Role} {frame : Frame} {i : Inbox}
    (h : Closes b w w' events active role frame i) : w.focus = some active.session :=
  Course.focus_of_session (by simp [session?, active?, h.thread])

/-- The record of a session does not change with what leaves it as it was. -/
theorem record_modifyInbox {f : Inbox → Inbox} (hf : ∀ i, (f i).record = i.record) (n m : Nat) :
    ((w.modifyInbox n f).inbox? m).map (·.record) = (w.inbox? m).map (·.record) :=
  map_inbox?_modifyInbox fun i _ _ => hf i

/-- The thread has come to the end of an upload, with the turn in the state of its session. -/
theorem closes_of {active : Active σ} {role : Role} {frame : Frame} {i : Inbox} (j : Inbox)
    (closing : List Event) (ht : w.thread = .uploading active role frame)
    (hi : w.inbox? active.session = some i)
    (hj : j.record = (active.loop.process b i role frame).inbox.record)
    (hclosing : ∀ e ∈ closing, e.isTurn = false)
    (hboxes : w'.inboxes = (w.modifyInbox active.session fun _ => j).inboxes)
    (haway : w'.busy? = none)
    (hfailed : (active.loop.process b i role frame).outcome.isFailed = true → j.stopping = true)
    (hcrashed : (active.loop.process b i role frame).outcome.isCrashed = true →
      w'.listening = false) :
    Closes b w w' ((active.loop.process b i role frame).events ++ closing) active role frame i := by
  have hinbox : ∀ n, w'.inbox? n = (w.modifyInbox active.session fun _ => j).inbox? n := by
    intro n
    unfold inbox?
    rw [hboxes]
  have hown : w'.inbox? active.session = some j :=
    (hinbox _).trans (Course.inbox?_modifyInbox_self (fun _ => j) hi)
  refine ⟨ht, hi, ⟨closing, rfl, hclosing⟩, ⟨j, hown, hj⟩, fun n hn => ?_, haway, fun hf => ?_,
    hcrashed⟩
  · rw [hinbox, inbox?_modifyInbox, if_neg hn]
  · exact (isStopping_eq hown).trans (hfailed hf)

/-- The thread comes to the end of an upload, or it does nothing that is recorded. -/
theorem works_turn (h : Works b w w' events) :
    (∃ active role frame i, Closes b w w' events active role frame i) ∨
      (∀ e ∈ events, e.isTurn = false) ∧
        ∀ n, (w'.inbox? n).map (·.record) = (w.inbox? n).map (·.record) := by
  have made : ∀ (output : Size) (effects : List Effect),
      ∀ e ∈ Event.create output :: effects.map .effect, e.isTurn = false := by
    intro output effects e he
    rcases List.mem_cons.mp he with rfl | he
    · rfl
    · exact Event.not_turn_effects effects e he
  cases h with
  | rest | ignore | heed | halt | miss | lose => exact .inr ⟨List.forall_mem_nil _, fun _ => rfl⟩
  | serve | decline | collapse => exact .inr ⟨made _ _, fun _ => rfl⟩
  | @discard active | @report active =>
    exact .inr ⟨List.forall_mem_nil _, fun n => record_modifyInbox Inbox.record_clearSlots active.session n⟩
  | @release notices active =>
    refine .inr ⟨fun e he => ?_,
      fun n => record_modifyInbox Inbox.record_clearSlots active.session n⟩
    rcases List.mem_cons.mp he with rfl | he
    · rfl
    · exact Event.not_turn_notices notices e he
  | @shutdown active =>
    refine .inr ⟨fun e he => ?_, fun _ => rfl⟩
    rcases List.mem_append.mp he with he | he
    · split at he
      · rw [List.mem_singleton.mp he]
        rfl
      · cases he
    · rw [List.mem_singleton.mp he]
      rfl
  | @reach active role =>
    exact .inr ⟨List.forall_mem_singleton.mpr rfl,
      fun n => record_modifyInbox (fun i => i.record_withdraw role) active.session n⟩
  | @finish active role frame i _ ht hi ho =>
    refine .inl ⟨active, role, frame, i, ?_⟩
    rw [← List.append_nil (active.loop.process b i role frame).events]
    exact closes_of _ [] ht hi rfl (List.forall_mem_nil _) rfl rfl (by simp [ho, Outcome.isFailed])
      (by simp [ho, Outcome.isCrashed])
  | @fail active role frame i fault ht hi ho =>
    exact .inl ⟨active, role, frame, i,
      closes_of (active.loop.process b i role frame).inbox.requestStop _ ht hi rfl
        (List.forall_mem_singleton.mpr rfl) rfl rfl (fun _ => rfl)
        (by simp [ho, Outcome.isCrashed])⟩
  | @crash active role frame i crash ht hi ho =>
    exact .inl ⟨active, role, frame, i,
      closes_of (active.loop.process b i role frame).inbox _ ht hi rfl
        (List.forall_mem_singleton.mpr rfl) rfl rfl (by simp [ho, Outcome.isFailed]) fun _ => rfl⟩

/-- A thread that is inside an upload comes to its end. -/
theorem closes_work {active : Active σ} {role : Role} {frame : Frame} {i : Inbox}
    (ht : w.thread = .uploading active role frame) (hi : w.inbox? active.session = some i) :
    Closes b w (w.work b).1 (w.work b).2 active role frame i := by
  have hwork : w.work b = w.finishUpload b active role frame := by
    unfold work
    rw [ht]
  simp only [hwork, finishUpload, hi,
    setInbox_eq_modifyInbox (fun _ => (active.loop.process b i role frame).inbox) hi]
  cases ho : (active.loop.process b i role frame).outcome with
  | done =>
    dsimp only
    rw [← List.append_nil (active.loop.process b i role frame).events]
    exact closes_of _ [] ht hi rfl (List.forall_mem_nil _) rfl rfl (by simp [ho, Outcome.isFailed])
      (by simp [ho, Outcome.isCrashed])
  | failed =>
    refine closes_of (active.loop.process b i role frame).inbox.requestStop _ ht hi rfl
      (List.forall_mem_singleton.mpr rfl) ?_ rfl (fun _ => rfl) (by simp [ho, Outcome.isCrashed])
    simp only [modifyInbox, List.modify_modify_eq]
    rfl
  | crashed =>
    exact closes_of (active.loop.process b i role frame).inbox _ ht hi rfl
      (List.forall_mem_singleton.mpr rfl) rfl rfl (by simp [ho, Outcome.isFailed]) fun _ => rfl

/-- What a step of the thread does for a session is what it writes down. -/
theorem record_works (h : Works b w w' events) (n : Nat) :
    (w'.inbox? n).map (·.record) =
      (w.inbox? n).map fun i =>
        (if w.focus = some n then events else []).foldl Record.enter i.record := by
  rcases works_turn h with ⟨active, role, frame, i, hc⟩ | ⟨hquiet, hsame⟩
  · rw [focus_of_closes hc]
    by_cases hn : active.session = n
    · subst hn
      obtain ⟨closing, hevents, hclosing⟩ := hc.events
      obtain ⟨i', hi', hrecord⟩ := hc.own
      rw [hc.inbox, hi', Option.map_some, Option.map_some, if_pos rfl, hevents, List.foldl_append,
        Record.entered_of_not_turn hclosing, hrecord,
        Loop.record_processes (Loop.process_processes b active.loop i role frame)]
    · rw [hc.others n hn, if_neg fun heq => hn (Option.some.inj heq)]
      rfl
  · rw [hsame]
    congr 1
    funext i
    refine (Record.entered_of_not_turn (fun e he => ?_) _).symm
    split at he
    · exact hquiet e he
    · cases he

end

end World

/-- The thread goes on. -/
def Act.isWork : Act σ → Bool
  | .work => true
  | _ => false

namespace Course

/-! ## The record of a session -/

section

variable {c c' : Course σ}

/-- Whoever goes on, but for the thread: the thread is where it was, and nothing was done for a
session. -/
theorem aside_step {act : Act σ} (hact : act.isWork = false) :
    (c.step b act).world.thread = c.world.thread ∧
      ∀ n, workFor n (c.step b act).story = workFor n c.story := by
  have told : ∀ {new : List Happening}, (∀ x ∈ new, x.isAside = true) →
      ∀ n, workFor n (c.story ++ new) = workFor n c.story := by
    intro new hnew n
    rw [workFor_append, workFor_asides hnew, List.append_nil]
  have owner : ∀ {next : Course σ}, next = c ∨ Manages c next →
      next.world.thread = c.world.thread ∧ ∀ n, workFor n next.story = workFor n c.story := by
    rintro next (rfl | hm)
    · exact ⟨rfl, fun _ => rfl⟩
    · obtain ⟨new, hstory, hnew⟩ := (spares_manages hm).story
      refine ⟨(spares_manages hm).thread, fun n => ?_⟩
      rw [hstory, workFor_append, workFor_orders hnew, List.append_nil]
  cases act with
  | work => cases hact
  | approach session role frame =>
    simp only [step, approach]
    split
    · split
      · exact ⟨rfl, told (List.forall_mem_singleton.mpr rfl)⟩
      · exact ⟨rfl, fun _ => rfl⟩
    · exact ⟨rfl, fun _ => rfl⟩
  | advance k =>
    simp only [step, advance]
    split
    · exact ⟨rfl, fun _ => rfl⟩
    · split
      · exact ⟨rfl, fun _ => rfl⟩
      · refine ⟨?_, told (asides_tale _ _)⟩
        dsimp only
        split
        · exact thread_post _ _
        · rfl
  | start config factory clock => exact owner (start_manages config factory clock)
  | stop => exact owner stop_manages
  | leave => exact owner leave_manages
  | proceed => exact owner proceed_manages

/-- Nothing is done for a session but by the thread. -/
theorem workFor_moves (hm : Moves b c c') (n : Nat) :
    workFor n c'.story = workFor n c.story ∨
      ∃ events, World.Works b c.world c'.world events ∧
        workFor n c'.story =
          workFor n c.story ++ if c.world.focus = some n then events else [] := by
  obtain ⟨new, hstory, htells⟩ := moves_tells hm
  rw [hstory, workFor_append]
  cases htells with
  | work hw => exact .inr ⟨_, hw, by rw [workFor_worked]⟩
  | close => exact .inl (List.append_nil _)
  | aside hnew => exact .inl (by rw [workFor_asides hnew, List.append_nil])

/-- Nothing but the thread writes into the record of a session, and a session begins with a
blank one. -/
theorem record_moves (h : Sound c) (hm : Moves b c c') {n : Nat} {i' : Inbox}
    (hi' : c'.world.inbox? n = some i') :
    (∃ i, c.world.inbox? n = some i ∧
      ∃ new, workFor n c'.story = workFor n c.story ++ new ∧
        i'.record = new.foldl Record.enter i.record) ∨
      c.terms[n]? = none ∧ i'.record = .blank ∧ workFor n c'.story = workFor n c.story := by
  have touched : ∀ {m : Nat} {f : Inbox → Inbox}, (∀ i, (f i).record = i.record) →
      (c.world.modifyInbox m f).inbox? n = some i' →
      ∃ i, c.world.inbox? n = some i ∧ i'.record = i.record := by
    intro m f hf hi'
    have hmap := World.record_modifyInbox (w := c.world) hf m n
    rw [hi'] at hmap
    obtain ⟨i, hi, heq⟩ := Option.map_eq_some_iff.mp hmap.symm
    exact ⟨i, hi, heq.symm⟩
  have still : ∀ {new : List Happening}, (∀ x ∈ new, x.isAside = true) →
      c'.story = c.story ++ new →
      (∃ i, c.world.inbox? n = some i ∧ i'.record = i.record) →
      ∃ i, c.world.inbox? n = some i ∧
        ∃ new, workFor n c'.story = workFor n c.story ++ new ∧
          i'.record = new.foldl Record.enter i.record := by
    rintro new hnew hstory ⟨i, hi, heq⟩
    refine ⟨i, hi, [], ?_, heq⟩
    rw [hstory, workFor_append, workFor_asides hnew]
  cases hm with
  | turnAway =>
    exact .inl (still (by simp [Happening.isAside]) rfl ⟨i', hi', rfl⟩)
  | approach => exact .inl (still (List.forall_mem_nil _) (List.append_nil _).symm ⟨i', hi', rfl⟩)
  | accept | confirm | overtake | unheard | tell =>
    exact .inl (still (asides_tale _ _) rfl ⟨i', hi', rfl⟩)
  | refuse =>
    exact .inl (still (asides_tale _ _) rfl
      (touched (fun i => i.record_countRejected _) hi'))
  | park =>
    exact .inl (still (asides_tale _ _) rfl (touched (fun i => i.record_park _ _) hi'))
  | replace =>
    exact .inl (still (asides_tale _ _) rfl (touched (fun i => i.record_countDropped _) hi'))
  | withdraw =>
    exact .inl (still (asides_tale _ _) rfl (touched (fun i => i.record_withdraw _) hi'))
  | @work world events hw =>
    have hmap := World.record_works hw n
    rw [hi'] at hmap
    obtain ⟨i, hi, heq⟩ := Option.map_eq_some_iff.mp hmap.symm
    refine .inl ⟨i, hi, _, ?_, heq.symm⟩
    dsimp only
    rw [workFor_append, workFor_worked]
  | owner hm =>
    obtain ⟨new, hstory, hnew⟩ := (spares_manages hm).story
    have hwork : workFor n c'.story = workFor n c.story := by
      rw [hstory, workFor_append, workFor_orders hnew, List.append_nil]
    have same : (∃ i, c.world.inbox? n = some i ∧ i'.record = i.record) →
        ∃ i, c.world.inbox? n = some i ∧
          ∃ new, workFor n c'.story = workFor n c.story ++ new ∧
            i'.record = new.foldl Record.enter i.record := by
      rintro ⟨i, hi, heq⟩
      exact ⟨i, hi, [], by rw [hwork, List.append_nil], heq⟩
    have asked : ∀ {config : Config Float32},
        (c.world.inboxes ++ [.ofConfig config])[n]? = some i' →
        (∃ i, c.world.inbox? n = some i ∧
          ∃ new, workFor n c'.story = workFor n c.story ++ new ∧
            i'.record = new.foldl Record.enter i.record) ∨
          c.terms[n]? = none ∧ i'.record = .blank ∧ workFor n c'.story = workFor n c.story := by
      intro config hi'
      by_cases hlt : n < c.world.inboxes.length
      · rw [List.getElem?_append_left hlt] at hi'
        exact .inl (same ⟨i', hi', rfl⟩)
      · refine .inr ⟨List.getElem?_eq_none (by rw [h.terms_length]; omega), ?_, hwork⟩
        have hmem := List.mem_of_getElem? ((List.getElem?_append_right (by omega)).symm.trans hi')
        rw [List.mem_singleton.mp hmem]
        rfl
    cases hm with
    | refuseStart | loseStart | failStart | grant | close | leave | depart =>
      exact .inl (same ⟨i', hi', rfl⟩)
    | startUnheard | start => exact asked hi'
    | raise => exact .inl (same (touched Inbox.record_requestStop hi'))
    | askStop | askEnd =>
      unfold World.inbox? at hi'
      rw [inboxes_post] at hi'
      exact .inl (same ⟨i', hi', rfl⟩)

end

/-- In every state a session has recorded what was done for it, and nothing else. -/
theorem record_run (b : Backend σ) (acts : List (Act σ)) {n : Nat} {i : Inbox}
    (hi : (run b acts).world.inbox? n = some i) :
    i.record = (workFor n (run b acts).story).foldl Record.enter .blank := by
  refine (sound_run_induction b acts
    (P := fun c => Staged b c ∧ ∀ n i, c.world.inbox? n = some i →
      i.record = (workFor n c.story).foldl Record.enter .blank)
    ⟨staged_new, by simp [World.inbox?, new, World.new]⟩ ?_).2 n i hi
  rintro c c' h ⟨hstaged, hc⟩ hm
  refine ⟨staged_moves h hm hstaged, fun n i' hi' => ?_⟩
  rcases record_moves h hm hi' with ⟨i, hi, new, hwork, heq⟩ | ⟨hterm, hblank, hwork⟩
  · rw [hwork, List.foldl_append, heq, hc n i hi]
  · rw [hwork, hstaged.nobody n hterm, hblank]
    rfl

end Course

end PictureInPicture
