-- A session that was told to stop takes nothing in and keeps nothing. A submission that the stop
-- has overtaken takes its frame back, so the slots are empty for good once the thread has emptied
-- them and every submission is at its end.
import PictureInPicture.Proofs.Session.Vetting

namespace PictureInPicture

variable {σ : Type} {b : Backend σ}

namespace Act

/-- A submission goes on. -/
def isAdvance (k : Nat) : Act σ → Bool
  | advance j => j = k
  | _ => false

end Act

/-! ## Submissions on their way back -/

namespace Errand

/-- The stop flag was looked at once, and is to be looked at again. -/
def Stage.isUnconfirmed : Stage → Bool
  | checking | parking | confirming _ => true
  | _ => false

/-- The flag was down when it was looked at for the second time. -/
def Stage.isTelling : Stage → Bool
  | telling _ => true
  | _ => false

/-- The frame is in its slot, and nobody was told of it. -/
def Stage.isHolding : Stage → Bool
  | confirming _ | withdrawing => true
  | _ => false

/-- How many steps are left before the end, if the flag is up. -/
def Stage.left : Stage → Nat
  | checking => 4
  | parking => 3
  | confirming _ => 2
  | telling _ => 2
  | withdrawing => 1
  | done _ => 0

/-- What a submission answers if the flag is up: a frame that is still to be checked may be
refused, and otherwise it is left out. -/
def verdict (e : Errand) (declared : Both Source) : Except BufferFault Submission :=
  match e.stage with
  | .checking => (e.frame.validateFor e.role (declared.get e.role)).map fun _ => .ignored
  | .done result => result
  | _ => .ok .ignored

/-- A submission that the stop has overtaken, some steps later. -/
structure Retreats (declared : Both Source) (e e' : Errand) : Prop where
  session : e'.session = e.session
  role : e'.role = e.role
  frame : e'.frame = e.frame
  untold : e'.stage.isTelling = false
  verdict : e'.verdict declared = e.verdict declared

theorem untold_of_unconfirmed {e : Errand} (h : e.stage.isUnconfirmed = true) :
    e.stage.isTelling = false ∧ e.stage.left ≤ 4 := by
  cases hs : e.stage <;> simp_all [Stage.isUnconfirmed, Stage.isTelling, Stage.left]

theorem done_of_left {stage : Stage} (h : stage.left = 0) : ∃ result, stage = .done result := by
  cases stage <;> first | exact ⟨_, rfl⟩ | cases h

/-- A step of a submission that finds the flag up tells nobody, and comes nearer to the end. -/
theorem next_of_stopping {e : Errand} {i : Inbox} (hi : i.stopping = true)
    (he : e.stage.isTelling = false) (listening : Bool) :
    (e.next i listening).2.2 = false ∧
      (e.next i listening).2.1.left ≤ e.stage.left - 1 ∧
      Retreats i.declared e { e with stage := (e.next i listening).2.1 } := by
  obtain ⟨session, role, frame, stage⟩ := e
  cases stage with
  | telling => cases he
  | checking =>
    cases hv : frame.validateFor role (i.declared.get role) with
    | ok =>
      simp only [next, Inbox.inspect, hv]
      exact ⟨trivial, Nat.le_refl _, rfl, rfl, rfl, rfl, by simp [Errand.verdict, hv, Except.map]⟩
    | error fault =>
      simp only [next, Inbox.inspect, hv]
      exact ⟨trivial, Nat.zero_le _, rfl, rfl, rfl, rfl, by simp [Errand.verdict, hv, Except.map]⟩
  | confirming displaced =>
    simp only [next, hi, if_true]
    exact ⟨trivial, Nat.le_refl _, rfl, rfl, rfl, rfl, rfl⟩
  | parking | withdrawing | done => exact ⟨rfl, Nat.le_refl _, rfl, rfl, rfl, rfl, rfl⟩

end Errand

namespace World

variable {w : World σ} {n m : Nat} {r role : Role} {frame frame' : Frame}

/-- A frame in a slot was put there just now, or was there before. -/
theorem slot?_of_park (hs : (w.modifyInbox m (·.park r frame')).slot? n role = some frame) :
    m = n ∧ r = role ∨ w.slot? n role = some frame := by
  rw [slot?_modifyInbox] at hs
  split at hs
  · rename_i hn
    obtain ⟨i, hi, hs⟩ := Option.bind_eq_some_iff.mp hs
    rw [Inbox.slot_park] at hs
    split at hs
    · rename_i hr
      exact .inl ⟨hn, hr⟩
    · rw [slot?_eq hi]
      exact .inr hs
  · exact .inr hs

/-- A frame in a slot is none that was taken back. -/
theorem slot?_of_withdraw (hs : (w.modifyInbox m (·.withdraw r)).slot? n role = some frame) :
    ¬(m = n ∧ r = role) ∧ w.slot? n role = some frame := by
  rw [slot?_modifyInbox] at hs
  split at hs
  · obtain ⟨i, hi, hs⟩ := Option.bind_eq_some_iff.mp hs
    rw [Inbox.slot_withdraw] at hs
    split at hs
    · cases hs
    · rename_i hr
      rw [slot?_eq hi]
      exact ⟨fun h => hr h.2, hs⟩
  · rename_i hn
    exact ⟨fun h => hn h.1, hs⟩

/-- A session that takes no frames leaves a frame out, and nothing changes. -/
theorem submit_of_stopping (hs : w.isStopping n = true) (role : Role) (frame : Frame) :
    w.submit n role frame = (w, .ok .ignored) := by
  cases hi : w.inbox? n with
  | none => simp [isStopping, hi] at hs
  | some i =>
    rw [isStopping_eq hi] at hs
    simp [submit, hi, Inbox.submit, hs, setInbox_self hi]

theorem slot?_clearSlots (w : World σ) (n : Nat) (r : Role) :
    (w.modifyInbox n .clearSlots).slot? n r = none := by
  rw [slot?_modifyInbox, if_pos rfl]
  cases w.inbox? n <;> simp

end World

namespace Course

variable {c c' : Course σ} {n : Nat}

/-! ## What came about in a course -/

/-- It came about before or with one of the acts. -/
def Occurs (b : Backend σ) (acts : List (Act σ)) (P : Course σ → Act σ → Prop) : Prop :=
  ∃ pre act post, acts = pre ++ act :: post ∧ P (run b pre) act

/-- What comes with an act and is kept from then on holds since it came about. -/
theorem holds_since {P : Course σ → Act σ → Prop} {Q : Course σ → Prop} {acts : List (Act σ)}
    (h : Occurs b acts P)
    (hcomes : ∀ pre act, P (run b pre) act → Q ((run b pre).step b act))
    (hkept : ∀ c c', Sound c → Q c → Moves b c c' → Q c') : Q (run b acts) := by
  obtain ⟨pre, act, post, rfl, hp⟩ := h
  have hbegun : Q (run b (pre ++ [act])) := by
    rw [run_append]
    exact hcomes pre act hp
  have hlater := later_run b (pre ++ [act]) post hbegun hkept
  rwa [List.append_assoc] at hlater

theorem occurs_append {P : Course σ → Act σ → Prop} {acts : List (Act σ)} (h : Occurs b acts P)
    (more : List (Act σ)) : Occurs b (acts ++ more) P := by
  obtain ⟨pre, act, post, rfl, hp⟩ := h
  exact ⟨pre, act, post ++ more, List.append_assoc _ _ _, hp⟩

/-- The owner asks for the end of the session, or is given up. -/
def AsksToStop (n : Nat) (c : Course σ) : Act σ → Prop
  | .stop | .leave => c.duty = .free ∧ c.world.running = some n
  | _ => False

/-- A call on the backend of the session comes back with a fault that ends the session. -/
def Fails (b : Backend σ) (n : Nat) (c : Course σ) : Act σ → Prop
  | .work => ∃ active role frame inbox fault, c.world.thread = .uploading active role frame ∧
      active.session = n ∧ c.world.inbox? n = some inbox ∧
      (active.loop.process b inbox role frame).outcome = .failed fault
  | _ => False

/-- The thread carries out the stop of the session. -/
def Releases (n : Nat) (c : Course σ) : Act σ → Prop
  | .work => ∃ active queue, c.world.thread = .idle (some active) ∧ active.session = n ∧
      c.world.queue = .stop :: queue
  | _ => False

/-- The stop of the session is the next thing on the thread, as it can be read off without the
functions that other tasks hold. -/
def isReleasing (c : Course σ) (n : Nat) : Bool :=
  match c.world.thread, c.world.queue with
  | .idle (some active), .stop :: _ => active.session == n
  | _, _ => false

theorem releases_of_isReleasing {c : Course σ} {n : Nat} (h : c.isReleasing n = true) :
    Releases n c .work := by
  unfold isReleasing at h
  split at h
  · rename_i active queue ht hq
    exact ⟨active, queue, ht, by simpa using h, hq⟩
  · cases h

/-- The thread comes to the end of the task that has failed. -/
def Reports (n : Nat) (c : Course σ) : Act σ → Prop
  | .work => ∃ active fault, c.world.thread = .failing active fault ∧ active.session = n
  | _ => False

/-! ## The flag stays up -/

/-- Nobody lowers the flag of a session. -/
theorem isStopping_moves (hm : Moves b c c') (hs : c.world.isStopping n = true) :
    c'.world.isStopping n = true := by
  cases hm with
  | turnAway | approach | accept | confirm | overtake | unheard | tell => exact hs
  | refuse | park | replace | withdraw =>
    refine World.isStopping_modifyInbox_of (fun i _ hi => ?_) hs
    exact hi
  | work hw => exact World.isStopping_works hw hs
  | owner hm => exact (spares_manages hm).stopping n hs

/-- A flag that is raised is up. -/
theorem isStopping_raised {w : World σ} {i : Inbox} (hi : w.inbox? n = some i) :
    (w.modifyInbox n .requestStop).isStopping n = true := by
  rw [World.isStopping_requestStop, hi]
  simp

theorem stopping_of_asked (h : Sound c) {act : Act σ} (hask : AsksToStop n c act) :
    (c.step b act).world.isStopping n = true := by
  have raised : ∀ (leaving : Bool) (otherwise : Duty), c.duty = .free →
      c.world.running = some n → (c.raise leaving otherwise).world.isStopping n = true := by
    intro leaving otherwise hd hr
    obtain ⟨i, hi⟩ := inbox_of_endpoint h (served_of_running h hr).2.1
    unfold raise
    rw [hr]
    exact isStopping_raised hi
  cases act with
  | stop =>
    obtain ⟨hd, hr⟩ := hask
    unfold step stop
    rw [if_pos hd]
    exact raised false .free hd hr
  | leave =>
    obtain ⟨hd, hr⟩ := hask
    unfold step leave
    rw [if_pos hd]
    exact raised true .leaving hd hr
  | approach | advance | work | start | proceed => exact hask.elim

theorem stopping_of_failed {act : Act σ} (hf : Fails b n c act) :
    (c.step b act).world.isStopping n = true := by
  cases act with
  | work =>
    obtain ⟨active, role, frame, inbox, fault, ht, rfl, hi, ho⟩ := hf
    have hset : (c.world.setInbox active.session
        (active.loop.process b inbox role frame).inbox).inbox? active.session =
          some (active.loop.process b inbox role frame).inbox := by
      rw [World.setInbox_eq_modifyInbox (fun _ => (active.loop.process b inbox role frame).inbox) hi]
      exact inbox?_modifyInbox_self (fun _ => (active.loop.process b inbox role frame).inbox) hi
    simp only [step, work, World.work, ht, World.finishUpload, hi, ho]
    exact isStopping_raised hset
  | approach | advance | start | stop | leave | proceed => exact hf.elim

/-- A session that was asked to stop, or has failed, takes no frames from then on. -/
theorem stopping_since {acts : List (Act σ)}
    (h : Occurs b acts fun c act => AsksToStop n c act ∨ Fails b n c act) :
    (run b acts).world.isStopping n = true := by
  refine holds_since (Q := fun c => c.world.isStopping n = true) h (fun pre act hp => ?_)
    fun c c' _ hs hm => isStopping_moves hm hs
  rcases hp with hask | hf
  · exact stopping_of_asked (sound_run b pre) hask
  · exact stopping_of_failed hf

/-! ## What a stop has overtaken -/

/-- A submission goes on only when it is its turn. -/
theorem errands_step {act : Act σ} {k : Nat} (hk : act.isAdvance k = false) {e : Errand}
    (he : c.errands[k]? = some e) : (c.step b act).errands[k]? = some e := by
  have owner : ∀ {next : Course σ}, next = c ∨ Manages c next → next.errands[k]? = some e := by
    rintro next (rfl | hm)
    · exact he
    · rw [(spares_manages hm).errands]
      exact he
  cases act with
  | approach session role frame =>
    have hlt := (List.getElem?_eq_some_iff.mp he).1
    unfold step approach
    dsimp only
    split
    · split <;> simpa [List.getElem?_append_left hlt] using he
    · exact he
  | advance j =>
    have hne : j ≠ k := by simpa [Act.isAdvance] using hk
    unfold step advance
    dsimp only
    split
    · exact he
    · split
      · exact he
      · rw [List.getElem?_set_ne hne]
        exact he
  | work => exact he
  | start config factory clock => exact owner (start_manages config factory clock)
  | stop => exact owner stop_manages
  | leave => exact owner leave_manages
  | proceed => exact owner proceed_manages

/-- The turn of a submission that finds the flag up. -/
theorem advance_of_stopping {k : Nat} {e : Errand} {i : Inbox} (he : c.errands[k]? = some e)
    (hi : c.world.inbox? e.session = some i) (hs : i.stopping = true)
    (hu : e.stage.isTelling = false) :
    (c.advance k).world.queue = c.world.queue ∧ (c.advance k).told = c.told ∧
      ∃ e', (c.advance k).errands[k]? = some e' ∧ e'.stage.left ≤ e.stage.left - 1 ∧
        Errand.Retreats i.declared e e' := by
  obtain ⟨htells, hleft, hretreat⟩ := Errand.next_of_stopping hs hu c.world.listening
  have hlt := (List.getElem?_eq_some_iff.mp he).1
  unfold advance
  simp only [he, hi, htells, Bool.false_eq_true, if_false, List.getElem?_set_self hlt, true_and]
  exact ⟨rfl, _, rfl, hleft, hretreat⟩

/-- The state of a session that takes no frames, as it was asked for. -/
theorem inbox_of_stopping {b : Backend σ} {acts : List (Act σ)} {t : Terms σ}
    (ht : (run b acts).terms[n]? = some t) (hs : (run b acts).world.isStopping n = true) :
    ∃ i, (run b acts).world.inbox? n = some i ∧ i.stopping = true ∧
      i.declared = t.config.sources := by
  have hdeclared := (vetted_run b acts).declared n
  rw [ht] at hdeclared
  cases hi : (run b acts).world.inbox? n with
  | none => simp [World.isStopping, hi] at hs
  | some i =>
    rw [World.declared?_eq hi] at hdeclared
    rw [World.isStopping_eq hi] at hs
    exact ⟨i, rfl, hs, Option.some.inj hdeclared⟩

section

variable {acts : List (Act σ)} {t : Terms σ} {k : Nat} {e : Errand}

/-- A submission that was overtaken is on its way back whatever else is done, and every turn of
its own brings it nearer to its end. -/
theorem retreats_later (hs : (run b acts).world.isStopping n = true)
    (ht : (run b acts).terms[n]? = some t) (he : (run b acts).errands[k]? = some e)
    (hn : e.session = n) (hu : e.stage.isTelling = false) (later : List (Act σ)) :
    ∃ e', (run b (acts ++ later)).errands[k]? = some e' ∧
      Errand.Retreats t.config.sources e e' ∧
      e'.stage.left ≤ e.stage.left - later.countP (Act.isAdvance k) := by
  induction later using List.reverseRecOn with
  | nil => exact ⟨e, by rwa [List.append_nil], ⟨rfl, rfl, rfl, hu, rfl⟩, Nat.le_refl _⟩
  | append_singleton later act ih =>
    obtain ⟨e₁, he₁, hretreat, hleft⟩ := ih
    rw [← List.append_assoc, run_append, List.countP_append, List.countP_singleton]
    cases hk : act.isAdvance k with
    | false => exact ⟨e₁, errands_step hk he₁, hretreat, hleft⟩
    | true =>
      obtain rfl : act = .advance k := by
        cases act <;> simp_all [Act.isAdvance]
      have hs' := later_run (P := fun c => c.world.isStopping n = true) b acts later hs
        fun _ _ _ h hm => isStopping_moves hm h
      obtain ⟨i, hi, hflag, hdeclared⟩ := inbox_of_stopping (term_run ht later) hs'
      rw [← hn, ← hretreat.session] at hi
      obtain ⟨_, _, e₂, he₂, hless, hnext⟩ := advance_of_stopping he₁ hi hflag hretreat.untold
      rw [hdeclared] at hnext
      refine ⟨e₂, he₂, ?_, by simp only [if_true]; omega⟩
      exact ⟨hnext.session.trans hretreat.session, hnext.role.trans hretreat.role,
        hnext.frame.trans hretreat.frame, hnext.untold, hnext.verdict.trans hretreat.verdict⟩

end

/-! ## Nothing is left in the slots -/

/-- The flag is up, and a frame in a slot has a submission that will take it back. -/
structure Vacated (c : Course σ) (n : Nat) : Prop where
  stopping : c.world.isStopping n = true
  held : ∀ role frame, c.world.slot? n role = some frame →
    ∃ e ∈ c.errands, e.session = n ∧ e.role = role ∧ e.stage.isHolding = true

/-- A frame keeps its submission, unless this very submission lets go of it. -/
theorem held_onward {k : Nat} {e : Errand} {role : Role} (stage : Errand.Stage)
    (he : c.errands[k]? = some e)
    (hkeep : e.session = n → e.role = role → e.stage.isHolding = true → stage.isHolding = true)
    (hheld : ∃ e ∈ c.errands, e.session = n ∧ e.role = role ∧ e.stage.isHolding = true) :
    ∃ e' ∈ (c.onward k e stage).errands,
      e'.session = n ∧ e'.role = role ∧ e'.stage.isHolding = true := by
  obtain ⟨e₁, hmem, hn, hr, hholds⟩ := hheld
  obtain ⟨j, hj⟩ := List.mem_iff_getElem?.mp hmem
  by_cases hjk : k = j
  · subst hjk
    obtain rfl : e = e₁ := Option.some.inj (he.symm.trans hj)
    have hlt := (List.getElem?_eq_some_iff.mp he).1
    exact ⟨{ e with stage }, List.mem_set hlt _, hn, hr, hkeep hn hr hholds⟩
  · refine ⟨e₁, List.mem_iff_getElem?.mpr ⟨j, ?_⟩, hn, hr, hholds⟩
    unfold onward
    rw [List.getElem?_set_ne hjk]
    exact hj

theorem vacated_moves (hm : Moves b c c') (hc : Vacated c n) : Vacated c' n := by
  refine ⟨isStopping_moves hm hc.stopping, fun role frame hslot => ?_⟩
  cases hm with
  | turnAway | approach =>
    obtain ⟨e, he, hholds⟩ := hc.held role frame hslot
    exact ⟨e, List.mem_append_left _ he, hholds⟩
  | accept he _ hs | tell he hs | unheard he hs =>
    refine held_onward _ he (fun _ _ hholds => ?_) (hc.held role frame hslot)
    rw [hs] at hholds
    cases hholds
  | refuse he _ hs | replace he _ hs =>
    have hslot := World.slot?_modifyInbox_of
      (fun i _ hi => (Inbox.slot_modifyStats i _ role _).symm.trans hi) hslot
    refine held_onward _ he (fun _ _ hholds => ?_) (hc.held role frame hslot)
    rw [hs] at hholds
    cases hholds
  | confirm he _ hf =>
    refine held_onward _ he (fun hn _ _ => ?_) (hc.held role frame hslot)
    rw [hn, hc.stopping] at hf
    cases hf
  | overtake he => exact held_onward _ he (fun _ _ _ => rfl) (hc.held role frame hslot)
  | park he =>
    rcases World.slot?_of_park hslot with ⟨hn, hr⟩ | hslot
    · have hlt := (List.getElem?_eq_some_iff.mp he).1
      exact ⟨_, List.mem_set hlt _, hn, hr, rfl⟩
    · exact held_onward _ he (fun _ _ _ => rfl) (hc.held role frame hslot)
  | withdraw he =>
    obtain ⟨hother, hslot⟩ := World.slot?_of_withdraw hslot
    exact held_onward _ he (fun hn hr _ => absurd ⟨hn, hr⟩ hother) (hc.held role frame hslot)
  | work hw => exact hc.held role frame (World.slot?_works hw hslot)
  | owner hm =>
    rw [(spares_manages hm).slot] at hslot
    rw [(spares_manages hm).errands]
    exact hc.held role frame hslot

/-- When the stop of a session is carried out, its flag is up and its slots are emptied. -/
theorem vacated_of_release (h : Sound c) {act : Act σ} (hr : Releases n c act) :
    Vacated (c.step b act) n := by
  cases act with
  | work =>
    obtain ⟨active, queue, ht, rfl, hq⟩ := hr
    have hflag := stopping_of_order h ht hq
    refine ⟨isStopping_moves (.work (World.work_works b c.world)) hflag,
      fun role frame hslot => ?_⟩
    have hempty : ((c.step b .work).world).slot? active.session role = none := by
      simp only [step, work, World.work, World.dequeue, ht, hq, World.stopTask]
      split <;> exact World.slot?_clearSlots c.world active.session role
    rw [hempty] at hslot
    cases hslot
  | approach | advance | start | stop | leave | proceed => exact hr.elim

/-- The flag of a session that has failed is up. -/
theorem stopping_of_failing (b : Backend σ) (acts : List (Act σ)) {active : Active σ}
    {fault : Fault} (ht : (run b acts).world.thread = .failing active fault) :
    (run b acts).world.isStopping active.session = true := by
  revert active fault
  refine run_induction (P := fun c => ∀ {active fault}, c.world.thread = .failing active fault →
    c.world.isStopping active.session = true) b acts nofun ?_
  intro c c' hc hm active fault ht
  have same : c'.world.thread = c.world.thread → c'.world.isStopping active.session = true := by
    intro hsame
    rw [hsame] at ht
    exact isStopping_moves hm (hc ht)
  have hm' := hm
  cases hm with
  | turnAway | approach | accept | refuse | park | confirm | overtake | replace | tell | unheard
  | withdraw => exact same rfl
  | owner hm => exact same (spares_manages hm).thread
  | work hw =>
    cases hw with
    | fail _ hi =>
      cases ht
      exact World.isStopping_eq (inbox?_modifyInbox_self (fun _ => Inbox.requestStop _) hi)
    | rest | decline | ignore | discard | halt => exact same rfl
    | serve | collapse | heed | release | shutdown | miss | reach | lose | finish | crash
    | report => cases ht

theorem vacated_of_report {pre : List (Act σ)} {act : Act σ} (hr : Reports n (run b pre) act) :
    Vacated ((run b pre).step b act) n := by
  cases act with
  | work =>
    obtain ⟨active, fault, ht, rfl⟩ := hr
    refine ⟨isStopping_moves (.work (World.work_works b _)) (stopping_of_failing b pre ht),
      fun role frame hslot => ?_⟩
    simp only [step, work, World.work, ht] at hslot
    have hempty := World.slot?_clearSlots (run b pre).world active.session role
    exact absurd (hslot.symm.trans hempty) (Option.some_ne_none _)
  | approach | advance | start | stop | leave | proceed => exact hr.elim

/-- Once the stop of a session was carried out, or the task in which it has failed, a frame in its
slots has a submission that will take it back. -/
theorem vacated_since {acts : List (Act σ)}
    (h : Occurs b acts fun c act => Releases n c act ∨ Reports n c act) :
    Vacated (run b acts) n := by
  refine holds_since (Q := fun c => Vacated c n) h (fun pre act hp => ?_)
    fun c c' _ hc hm => vacated_moves hm hc
  rcases hp with hr | hr
  · exact vacated_of_release (sound_run b pre) hr
  · exact vacated_of_report hr

/-! ## A stopping session -/

/-- A session that was asked to stop, or has failed, is inert whatever is done afterwards, also
with other sessions. A submission that begins is left out and changes nothing but its own answer.
A submission that had looked at the flag only once tells nobody: it ends by being refused for its
frame, if this was still to be checked, and is left out otherwise. Once the thread has carried out
the stop, or the task that failed, both slots are empty whenever no submission is on its way. -/
theorem stopping_sessions_are_inert (b : Backend σ) (acts later : List (Act σ)) (n : Nat)
    (hasked : Occurs b acts fun c act => AsksToStop n c act ∨ Fails b n c act) :
    let c := run b acts
    let c' := run b (acts ++ later)
    (∀ role frame,
      c'.world.submit n role frame = (c'.world, .ok .ignored) ∧
      (n ∈ c'.endpoints → c'.approach n role frame =
        { c' with
          errands := c'.errands ++ [⟨n, role, frame, .done (.ok .ignored)⟩]
          story := c'.story ++ [.answered n role frame (.ok .ignored)] })) ∧
    (∀ t k e, c.terms[n]? = some t → c.errands[k]? = some e → e.session = n →
      e.stage.isUnconfirmed = true →
      ∃ e', c'.errands[k]? = some e' ∧
        e'.session = n ∧ e'.role = e.role ∧ e'.frame = e.frame ∧
        (c'.advance k).world.queue = c'.world.queue ∧ (c'.advance k).told = c'.told ∧
        (∀ result, e'.stage = .done result → result = e.verdict t.config.sources) ∧
        (4 ≤ later.countP (Act.isAdvance k) →
          e'.stage = .done (e.verdict t.config.sources))) ∧
    ((Occurs b (acts ++ later) fun c act => Releases n c act ∨ Reports n c act) →
      (∀ e ∈ c'.errands, e.session = n → ∃ result, e.stage = .done result) →
      ∀ role, c'.world.slot? n role = none) := by
  intro c c'
  have hs : c.world.isStopping n = true := stopping_since hasked
  have hs' : c'.world.isStopping n = true := stopping_since (occurs_append hasked later)
  refine ⟨fun role frame => ⟨?_, fun hn => ?_⟩, fun t k e ht he hn hu => ?_,
    fun hvacated hdone role => ?_⟩
  · exact World.submit_of_stopping hs' role frame
  · unfold approach
    rw [if_pos hn, if_pos hs']
  · obtain ⟨huntold, hfour⟩ := Errand.untold_of_unconfirmed hu
    obtain ⟨e', he', hretreat, hleft⟩ := retreats_later hs ht he hn huntold later
    obtain ⟨i, hi, hflag, _⟩ := inbox_of_stopping (term_run ht later) hs'
    rw [← hn, ← hretreat.session] at hi
    obtain ⟨hqueue, htold, _⟩ := advance_of_stopping he' hi hflag hretreat.untold
    have answered : ∀ result, e'.stage = .done result → result = e.verdict t.config.sources := by
      intro result hdone
      rw [← hretreat.verdict]
      unfold Errand.verdict
      rw [hdone]
    refine ⟨e', he', hretreat.session.trans hn, hretreat.role, hretreat.frame, hqueue, htold,
      answered, fun hturns => ?_⟩
    obtain ⟨result, hdone⟩ := Errand.done_of_left (by omega : e'.stage.left = 0)
    rw [hdone, answered result hdone]
  · cases hslot : c'.world.slot? n role with
    | none => rfl
    | some frame =>
      obtain ⟨e, he, hn, _, hholds⟩ := (vacated_since hvacated).held role frame hslot
      obtain ⟨result, hstage⟩ := hdone e he hn
      rw [hstage] at hholds
      cases hholds

/-- A submission puts its frame into a slot that the thread has emptied for good, finds the flag up
and takes the frame back. -/
theorem a_late_frame_is_taken_back :
    let b := obliging (.done ())
    let before : List (Act Unit) :=
      [.start onePixel (fun _ => ⟨.done (), []⟩) (.steady 1), .work, .proceed,
        .approach 0 .primary (pixel 9 9 9)]
    let later : List (Act Unit) :=
      [.proceed, .work, .advance 0, .advance 0, .advance 0, .advance 0]
    let acts := before ++ [.stop]
    (Occurs b acts fun c act => AsksToStop 0 c act ∨ Fails b 0 c act) ∧
      ((run b (acts ++ later.take 4)).world.slot? 0 .primary).isSome = true ∧
      ∀ role, (run b (acts ++ later)).world.slot? 0 role = none := by
  intro b before later acts
  have hasked : Occurs b acts fun c act => AsksToStop 0 c act ∨ Fails b 0 c act :=
    ⟨before, .stop, [], rfl, .inl ⟨by decide +kernel, by decide +kernel⟩⟩
  have hreleased : Occurs b (acts ++ later) fun c act => Releases 0 c act ∨ Reports 0 c act :=
    ⟨acts ++ [.proceed], .work, later.drop 2, rfl,
      .inl (releases_of_isReleasing (by decide +kernel))⟩
  have hleft : ∀ e ∈ (run b (acts ++ later)).errands, e.stage.left = 0 := by decide +kernel
  exact ⟨hasked, by decide +kernel,
    (stopping_sessions_are_inert b acts later 0 hasked).2.2 hreleased
      fun e he _ => Errand.done_of_left (hleft e he)⟩

end Course

end PictureInPicture
