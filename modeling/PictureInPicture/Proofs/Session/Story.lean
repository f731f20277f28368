-- What the story of a course can be asked. Most questions are about the milestones of one
-- session: the uploads that its thread begins and ends, and the end of its backend.
import PictureInPicture.Proofs.Session.Handshake

namespace PictureInPicture

variable {σ : Type} {b : Backend σ}

namespace Event

def isDrop : Event → Bool
  | drop => true
  | _ => false

def call? : Event → Option Call
  | call c => some c
  | _ => none

theorem countP_milestones {p : Event → Bool} (hp : ∀ e, p e = true → e.isMilestone = true)
    (events : List Event) : (events.filter isMilestone).countP p = events.countP p := by
  rw [List.countP_filter]
  congr 1
  funext e
  cases he : p e with
  | false => rfl
  | true => rw [hp e he]; rfl

end Event

namespace Happening

/-- What happened on the thread in its work for a session. -/
def workFor? (n : Nat) : Happening → Option Event
  | worked session event => if session = some n then some event else none
  | _ => none

/-- Neither work of the thread nor the end of a stop. -/
def isAside : Happening → Bool
  | worked .. => false
  | stopped _ => false
  | _ => true

/-- It came of what the owner does. -/
def isOrder : Happening → Bool
  | started _ => true
  | refused _ => true
  | stopped _ => true
  | _ => false

end Happening

/-- Everything that the thread has done for a session. -/
def workFor (n : Nat) (story : List Happening) : List Event := story.filterMap (Happening.workFor? n)

/-- The calls on a backend, in their order. -/
def calls (events : List Event) : List Call := events.filterMap Event.call?

/-- How many times the backend of a session was given up. -/
def drops (n : Nat) (story : List Happening) : Nat := (workFor n story).countP Event.isDrop

/-- What was done for a session was done on the thread in its work for it. -/
theorem mem_workFor {n : Nat} {event : Event} {story : List Happening} :
    event ∈ workFor n story ↔ .worked (some n) event ∈ story := by
  unfold workFor
  rw [List.mem_filterMap]
  constructor
  · rintro ⟨x, hx, hwork⟩
    cases x with
    | worked session event' =>
      simp only [Happening.workFor?] at hwork
      split at hwork
      · rename_i hs
        cases hwork
        rw [← hs]
        exact hx
      · cases hwork
    | parked | answered | started | refused | stopped => cases hwork
  · intro hx
    exact ⟨_, hx, if_pos rfl⟩

theorem workFor_append (n : Nat) (story more : List Happening) :
    workFor n (story ++ more) = workFor n story ++ workFor n more := List.filterMap_append

theorem drops_append (n : Nat) (story more : List Happening) :
    drops n (story ++ more) = drops n story + drops n more := by
  unfold drops
  rw [workFor_append, List.countP_append]

theorem workFor_worked (n : Nat) (session : Option Nat) (events : List Event) :
    workFor n (events.map (.worked session)) = if session = some n then events else [] := by
  unfold workFor
  rw [List.filterMap_map]
  split
  · rename_i h
    have hall : ∀ e, (Happening.workFor? n ∘ Happening.worked session) e = some e := by
      intro e
      simp [Happening.workFor?, h]
    rw [funext hall]
    exact List.filterMap_some
  · rename_i h
    refine List.filterMap_eq_nil_iff.mpr fun e _ => ?_
    simp [Happening.workFor?, h]

theorem workFor_asides {n : Nat} {new : List Happening} (h : ∀ x ∈ new, x.isAside = true) :
    workFor n new = [] := by
  refine List.filterMap_eq_nil_iff.mpr fun x hx => ?_
  have hx := h x hx
  cases x <;> first | rfl | cases hx

/-- What the owner does is no work of the thread. -/
theorem workFor_orders {n : Nat} {new : List Happening} (h : ∀ x ∈ new, x.isOrder = true) :
    workFor n new = [] := by
  refine List.filterMap_eq_nil_iff.mpr fun x hx => ?_
  have hx := h x hx
  cases x <;> first | rfl | cases hx

/-- A longer story is cut either in what was there or in what is new. -/
theorem split_append {α : Type} {old new pre post : List α} {x : α}
    (h : old ++ new = pre ++ x :: post) :
    (∃ post', old = pre ++ x :: post' ∧ post = post' ++ new) ∨
      ∃ pre', pre = old ++ pre' ∧ new = pre' ++ x :: post := by
  rcases List.append_eq_append_iff.mp h with ⟨more, hpre, hnew⟩ | ⟨more, hold, hpost⟩
  · exact .inr ⟨more, hpre, hnew⟩
  · cases more with
    | nil =>
      rw [List.append_nil] at hold
      exact .inr ⟨[], by rw [hold, List.append_nil], hpost.symm⟩
    | cons y more =>
      rw [List.cons_append] at hpost
      injection hpost with hxy hpost
      subst hxy
      exact .inl ⟨more, hold, hpost⟩

namespace World

variable {w w' : World σ} {events : List Event}

/-- The counters of a source, and zeros for a session that nobody has asked for. -/
def counts (w : World σ) (n : Nat) (role : Role) : SourceStats :=
  ((w.inbox? n).map (·.stats.sources.get role)).getD ⟨0, 0, 0⟩

theorem counts_eq {n : Nat} {i : Inbox} (hi : w.inbox? n = some i) (role : Role) :
    w.counts n role = i.stats.sources.get role := by
  simp [counts, hi]

/-- The counters of a session do not change with what leaves them as they were. -/
theorem counts_modifyInbox {f : Inbox → Inbox} {n m : Nat} {role : Role}
    (hf : ∀ i, w.inbox? n = some i → n = m →
      (f i).stats.sources.get role = i.stats.sources.get role) :
    (w.modifyInbox n f).counts m role = w.counts m role := by
  unfold counts
  rw [map_inbox?_modifyInbox fun i hnm hi => hf i (by rw [hnm]; exact hi) hnm]

/-- The backend is given up in the step in which the thread loses its session, and never
otherwise. A start that crashes has none yet. -/
theorem drops_works (h : Works b w w' events) (hstart : ∀ session config factory clock queue,
    w.queue = .start session config factory clock :: queue → w.session? = none) :
    events.countP Event.isDrop = if w.session? ≠ none ∧ w'.session? = none then 1 else 0 := by
  have turned : ∀ (l : Loop σ) (i : Inbox) (role : Role) (frame : Frame),
      (l.process b i role frame).events.countP Event.isDrop = 0 := by
    intro l i role frame
    rw [← Event.countP_milestones (by intro e he; cases e <;> first | rfl | cases he),
      Loop.processes_milestones (Loop.process_processes b l i role frame)]
    rfl
  have aside : ∀ effects : List Effect, (effects.map Event.effect).countP Event.isDrop = 0 := by
    intro effects
    simp [List.countP_eq_zero, Event.isDrop]
  cases h with
  | rest | ignore | discard | heed | halt | miss | reach | lose | report =>
    simp_all [session?, active?, reportFault, Event.isDrop]
  | serve effects ht hq =>
    rw [List.countP_cons, aside]
    simp [Event.isDrop, session?, active?]
  | decline effects ht hq | collapse effects ht hq =>
    have hs := hstart _ _ _ _ _ hq
    rw [List.countP_cons, aside]
    simp only [hs, ne_eq, not_true_eq_false, false_and, if_false]
    rfl
  | release notices ht hq =>
    have aside : (notices.map Event.notice).countP Event.isDrop = 0 := by
      simp [List.countP_eq_zero, Event.isDrop, Event.notice]
    rw [List.countP_cons, aside]
    simp [Event.isDrop, session?, active?, ht]
  | @shutdown active queue ht hq =>
    cases active with
    | none => simp [Event.isDrop, Event.notice, session?, active?, ht]
    | some active => simp [List.countP_cons, Event.isDrop, Event.notice, session?, active?, ht]
  | finish ht =>
    rw [turned]
    simp [session?, active?]
  | fail ht =>
    rw [List.countP_append, turned]
    simp [session?, active?, Event.isDrop, Event.notice]
  | crash ht =>
    rw [List.countP_append, turned]
    simp [session?, active?, ht, Event.isDrop]

end World

namespace Course

variable {c c' : Course σ}

/-! ## What the owner leaves as it was -/

/-- The course after something that touches no frame. -/
structure Spares (c c' : Course σ) : Prop where
  endpoints : ∀ n ∈ c.endpoints, n ∈ c'.endpoints
  errands : c'.errands = c.errands
  told : c'.told = c.told
  thread : c'.world.thread = c.world.thread
  slot : ∀ n r, c'.world.slot? n r = c.world.slot? n r
  counts : ∀ n r, c'.world.counts n r = c.world.counts n r
  stopping : ∀ n, c.world.isStopping n = true → c'.world.isStopping n = true
  queue : ∃ more, c'.world.queue = c.world.queue ++ more ∧ ∀ task ∈ more, task.role? = none
  story : ∃ new, c'.story = c.story ++ new ∧ ∀ x ∈ new, x.isOrder = true

theorem slot?_ask (w : World σ) (config : Config Float32) (queue : List (Task σ)) (n : Nat)
    (r : Role) :
    ({ w with inboxes := w.inboxes ++ [.ofConfig config], answer := none, queue } :
      World σ).slot? n r = w.slot? n r := by
  unfold World.slot? World.inbox?
  rcases Nat.lt_trichotomy n w.inboxes.length with hlt | rfl | hgt
  · rw [List.getElem?_append_left hlt]
  · cases r <;> simp [Inbox.ofConfig, Inbox.slot, Both.twice, Both.get, Inlet.empty]
  · rw [List.getElem?_eq_none (by simp; omega), List.getElem?_eq_none (by omega)]

theorem counts_ask (w : World σ) (config : Config Float32) (queue : List (Task σ)) (n : Nat)
    (r : Role) :
    ({ w with inboxes := w.inboxes ++ [.ofConfig config], answer := none, queue } :
      World σ).counts n r = w.counts n r := by
  unfold World.counts World.inbox?
  rcases Nat.lt_trichotomy n w.inboxes.length with hlt | rfl | hgt
  · rw [List.getElem?_append_left hlt]
  · cases r <;> simp [Inbox.ofConfig, Inbox.stats, Both.twice, Both.map, Both.get, Inlet.empty]
  · rw [List.getElem?_eq_none (by simp; omega), List.getElem?_eq_none (by omega)]

theorem isStopping_ask (w : World σ) (config : Config Float32) (queue : List (Task σ)) {n : Nat}
    (hs : w.isStopping n = true) :
    ({ w with inboxes := w.inboxes ++ [.ofConfig config], answer := none, queue } :
      World σ).isStopping n = true := by
  unfold World.isStopping World.inbox? at hs ⊢
  rcases Nat.lt_or_ge n w.inboxes.length with hlt | hge
  · rwa [List.getElem?_append_left hlt]
  · rw [List.getElem?_eq_none hge] at hs
    cases hs

theorem thread_post (w : World σ) (task : Task σ) : (w.post task).thread = w.thread := by
  unfold World.post
  split <;> rfl

theorem inboxes_post (w : World σ) (task : Task σ) : (w.post task).inboxes = w.inboxes := by
  unfold World.post
  split <;> rfl

theorem faults_post (w : World σ) (task : Task σ) : (w.post task).faults = w.faults := by
  unfold World.post
  split <;> rfl

theorem running_post (w : World σ) (task : Task σ) : (w.post task).running = w.running := by
  unfold World.post
  split <;> rfl

theorem queue_post (w : World σ) {task : Task σ} (ht : task.role? = none) :
    ∃ more, (w.post task).queue = w.queue ++ more ∧ ∀ t ∈ more, t.role? = none := by
  unfold World.post
  split
  · refine ⟨[task], rfl, fun t hmem => ?_⟩
    rw [List.mem_singleton.mp hmem]
    exact ht
  · exact ⟨[], (List.append_nil _).symm, by simp⟩

/-- The owner touches no frame and lowers no flag. -/
theorem spares_manages (hm : Manages c c') : Spares c c' := by
  have one : ∀ {x : Happening}, x.isOrder = true → ∀ y ∈ [x], y.isOrder = true := by
    intro x hx y hy
    rw [List.mem_singleton.mp hy]
    exact hx
  have silent : ∃ new, c.story = c.story ++ new ∧ ∀ x ∈ new, x.isOrder = true :=
    ⟨[], (List.append_nil _).symm, by simp⟩
  have still : ∃ more, c.world.queue = c.world.queue ++ more ∧
      ∀ task ∈ more, Task.role? task = none :=
    ⟨[], (List.append_nil _).symm, by simp⟩
  cases hm with
  | refuseStart | loseStart | failStart | close =>
    exact ⟨fun _ h => h, rfl, rfl, rfl, fun _ _ => rfl, fun _ _ => rfl, fun _ h => h, still,
      ⟨_, rfl, one rfl⟩⟩
  | grant =>
    exact ⟨fun _ h => List.mem_append_left _ h, rfl, rfl, rfl, fun _ _ => rfl, fun _ _ => rfl,
      fun _ h => h, still, ⟨_, rfl, one rfl⟩⟩
  | leave | depart =>
    exact ⟨fun _ h => h, rfl, rfl, rfl, fun _ _ => rfl, fun _ _ => rfl, fun _ h => h, still,
      silent⟩
  | startUnheard =>
    exact ⟨fun _ h => h, rfl, rfl, rfl, slot?_ask c.world _ _, counts_ask c.world _ _,
      fun _ h => isStopping_ask c.world _ _ h, still, ⟨_, rfl, one rfl⟩⟩
  | start =>
    refine ⟨fun _ h => h, rfl, rfl, rfl, slot?_ask c.world _ _, counts_ask c.world _ _,
      fun _ h => isStopping_ask c.world _ _ h, ⟨_, rfl, fun task hmem => ?_⟩, silent⟩
    rw [List.mem_singleton.mp hmem]
    rfl
  | @raise n =>
    refine ⟨fun _ h => h, rfl, rfl, rfl, fun m r => ?_, fun m r => ?_, fun m h => ?_, still,
      silent⟩
    · exact World.slot?_modifyInbox_of_slot (f := Inbox.requestStop) (fun _ _ => rfl) n m r
    · exact World.counts_modifyInbox (f := Inbox.requestStop) fun _ _ _ => rfl
    · exact World.isStopping_modifyInbox_of (f := Inbox.requestStop) (fun _ _ _ => rfl) h
  | askStop | askEnd =>
    refine ⟨fun _ h => h, rfl, rfl, thread_post _ _, fun n r => ?_, fun n r => ?_,
      fun n h => ?_, queue_post _ rfl, silent⟩
    · unfold World.slot? World.inbox?
      rw [inboxes_post]
    · unfold World.counts World.inbox?
      rw [inboxes_post]
    · unfold World.isStopping World.inbox? at h ⊢
      rw [inboxes_post]
      exact h

/-- What a step adds to the story: the work of the thread, the end of a stop, or something
aside from both. -/
inductive Tells (b : Backend σ) (c c' : Course σ) : List Happening → Prop where
  | work {events} (h : World.Works b c.world c'.world events) :
      Tells b c c' (events.map (.worked c.world.focus))
  | close {n leaving} (hd : c.duty = .stopping n leaving)
      (hq : c.world.queue.any Task.isStop = false) (hw : c'.world = c.world) :
      Tells b c c' [.stopped n]
  | aside {new} (hnew : ∀ x ∈ new, x.isAside = true) (hs : c'.world.session? = c.world.session?) :
      Tells b c c' new

theorem asides_tale (e : Errand) (stage : Errand.Stage) : ∀ x ∈ e.tale stage, x.isAside = true := by
  intro x hx
  unfold Errand.tale at hx
  split at hx
  · cases hx
  · rw [List.mem_singleton.mp hx]
    rfl
  · rw [List.mem_singleton.mp hx]
    rfl
  · cases hx

theorem session?_post (w : World σ) (task : Task σ) : (w.post task).session? = w.session? :=
  World.session?_of_thread (thread_post w task)

theorem moves_tells (hm : Moves b c c') : ∃ new, c'.story = c.story ++ new ∧ Tells b c c' new := by
  have onward : ∀ {e : Errand} {stage : Errand.Stage} {c' : Course σ},
      c'.story = c.story ++ e.tale stage → c'.world.session? = c.world.session? →
      ∃ new, c'.story = c.story ++ new ∧ Tells b c c' new := by
    intro e stage c' hstory hs
    exact ⟨e.tale stage, hstory, .aside (asides_tale e stage) hs⟩
  have one : ∀ {x : Happening} {c' : Course σ}, x.isAside = true →
      c'.story = c.story ++ [x] → c'.world.session? = c.world.session? →
      ∃ new, c'.story = c.story ++ new ∧ Tells b c c' new := by
    intro x c' hx hstory hs
    refine ⟨[x], hstory, .aside (fun y hy => ?_) hs⟩
    rw [List.mem_singleton.mp hy]
    exact hx
  have silent : ∀ {c' : Course σ}, c'.story = c.story → c'.world.session? = c.world.session? →
      ∃ new, c'.story = c.story ++ new ∧ Tells b c c' new := by
    intro c' hstory hs
    exact ⟨[], by rw [hstory, List.append_nil], .aside (by simp) hs⟩
  cases hm with
  | accept | refuse | park | confirm | overtake | replace | tell | unheard | withdraw =>
    exact onward rfl rfl
  | turnAway => exact one rfl rfl rfl
  | approach => exact silent rfl rfl
  | work hw => exact ⟨_, rfl, .work hw⟩
  | owner hm =>
    cases hm with
    | refuseStart | startUnheard | loseStart | failStart | grant => exact one rfl rfl rfl
    | start | raise | leave | depart => exact silent rfl rfl
    | askStop | askEnd => exact silent rfl (session?_post _ _)
    | close hd hq => exact ⟨_, rfl, .close hd hq rfl⟩

/-- What was told is never taken back. -/
theorem story_run (b : Backend σ) (acts more : List (Act σ)) :
    ∃ new, (run b (acts ++ more)).story = (run b acts).story ++ new := by
  refine later_run (P := fun c => ∃ new, c.story = (run b acts).story ++ new) b acts more
    ⟨[], (List.append_nil _).symm⟩ ?_
  rintro c c' _ ⟨told, hstory⟩ hm
  obtain ⟨new, hnew, _⟩ := moves_tells hm
  refine ⟨told ++ new, ?_⟩
  rw [hnew, hstory, List.append_assoc]

end Course

end PictureInPicture
