-- The thread when nobody comes in between: it works step by step until nothing is left to do,
-- and what it does with a frame is what the loop does with it.
import PictureInPicture.Proofs.Session.Moves

namespace PictureInPicture

variable {σ : Type} {b : Backend σ}

namespace World

variable {w w' w'' : World σ}

/-! ## The thread goes on -/

/-- Some steps of the thread, with what happened. -/
inductive Goes (b : Backend σ) : World σ → World σ → List Event → Prop where
  | stay (w : World σ) : Goes b w w []
  | step {w w' events} (h : Goes b (w.work b).1 w' events) : Goes b w w' ((w.work b).2 ++ events)

theorem Goes.trans {events more : List Event} (h : Goes b w w' events) (h' : Goes b w' w'' more) :
    Goes b w w'' (events ++ more) := by
  induction h with
  | stay => exact h'
  | step _ ih =>
    rw [List.append_assoc]
    exact .step (ih h')

theorem Goes.once (w : World σ) : Goes b w (w.work b).1 (w.work b).2 := by
  have h := Goes.step (.stay (w.work b).1)
  rw [List.append_nil] at h
  exact h

/-- The thread takes the next task in one step, and goes on to the slot in another one. -/
theorem goes_takeTask (b : Backend σ) (w : World σ) : Goes b w w.takeTask.1 w.takeTask.2 := by
  have reached : ∀ {w : World σ} {active role}, w.thread = .reaching active role →
      Goes b w (w.reach active role).1 (w.reach active role).2 := by
    intro w active role ht
    have h := Goes.once (b := b) w
    unfold work at h
    rw [ht] at h
    exact h
  have hdequeue : Goes b w w.dequeue.1 w.dequeue.2 := by
    cases ht : w.thread with
    | idle =>
      have h := Goes.once (b := b) w
      unfold work at h
      rw [ht] at h
      exact h
    | reaching | uploading | failing | gone =>
      unfold dequeue
      rw [ht]
      exact .stay w
  unfold takeTask
  dsimp only
  split
  · rename_i ht
    exact hdequeue.trans (reached ht)
  · exact hdequeue

theorem goes_resume (b : Backend σ) (w : World σ) : Goes b w (w.resume b).1 (w.resume b).2 := by
  unfold resume
  split
  · rename_i active role frame ht
    have hfinish : Goes b w (w.finishUpload b active role frame).1
        (w.finishUpload b active role frame).2 := by
      have h := Goes.once (b := b) w
      unfold work at h
      rw [ht] at h
      exact h
    dsimp only
    split
    · rename_i failed fault ht'
      have hreport : Goes b (w.finishUpload b active role frame).1
          ((w.finishUpload b active role frame).1.reportFault failed fault) [] := by
        have h := Goes.once (b := b) (w.finishUpload b active role frame).1
        unfold work at h
        rw [ht'] at h
        exact h
      have h := hfinish.trans hreport
      rw [List.append_nil] at h
      exact h
    · exact hfinish
  · exact .stay w

theorem goes_runTask (b : Backend σ) (w : World σ) : Goes b w (w.runTask b).1 (w.runTask b).2 :=
  (goes_takeTask b w).trans (goes_resume b _)

theorem goes_runTasks (b : Backend σ) (n : Nat) (w : World σ) :
    Goes b w (runTasks b n w).1 (runTasks b n w).2 := by
  induction n generalizing w with
  | zero => exact .stay w
  | succ n ih => exact (goes_runTask b w).trans (ih _)

/-- The thread works until nothing is left to do, step by step. -/
theorem goes_settle (b : Backend σ) (w : World σ) : Goes b w (w.settle b).1 (w.settle b).2 :=
  (goes_resume b w).trans (goes_runTasks b _ _)

/-- The thread works until it is inside an upload, step by step. -/
theorem goes_settleHeld (n : Nat) (w : World σ) :
    Goes b w (settleHeld n w).1 (settleHeld n w).2 := by
  induction n generalizing w with
  | zero => exact .stay w
  | succ n ih =>
    unfold settleHeld
    split
    · exact (goes_takeTask b w).trans (ih _)
    · exact .stay w

/-! ## Nothing is left to do -/

/-- The thread is between two tasks, or has ended and left none. -/
def Calm (w : World σ) : Prop :=
  (∃ active, w.thread = .idle active) ∨ w.thread = .gone ∧ w.queue = []

/-- Between two calls the thread may be held inside an upload as well. -/
def Held (w : World σ) : Prop :=
  w.Calm ∨ ∃ active role frame, w.thread = .uploading active role frame

/-- A task more does not make the thread go on. -/
theorem held_post {task : Task σ} (h : w.Held) : (w.post task).Held := by
  cases hlistening : w.listening with
  | false =>
    rw [post_of_gone hlistening]
    exact h
  | true =>
    rw [post_of_listening hlistening]
    rcases h with (⟨active, ht⟩ | ⟨ht, _⟩) | hupload
    · exact .inl (.inl ⟨active, ht⟩)
    · unfold listening at hlistening
      rw [ht] at hlistening
      cases hlistening
    · exact .inr hupload

theorem calm_finish {active : Active σ} {role : Role} {frame : Frame}
    (ht : w.thread = .uploading active role frame) :
    (w.resume b).1.Calm ∧ (w.resume b).1.queue.length ≤ w.queue.length := by
  unfold resume finishUpload
  rw [ht]
  dsimp only
  cases hi : w.inbox? active.session with
  | none => exact ⟨.inl ⟨_, rfl⟩, Nat.le_refl _⟩
  | some inbox =>
    dsimp only
    cases (active.loop.process b inbox role frame).outcome with
    | done => exact ⟨.inl ⟨_, rfl⟩, Nat.le_refl _⟩
    | failed => exact ⟨.inl ⟨_, rfl⟩, Nat.le_refl _⟩
    | crashed => exact ⟨.inr ⟨rfl, rfl⟩, Nat.zero_le _⟩

theorem calm_resume (h : w.Held) :
    (w.resume b).1.Calm ∧ (w.resume b).1.queue.length ≤ w.queue.length := by
  rcases h with hcalm | ⟨active, role, frame, ht⟩
  · have hsame : w.resume b = (w, []) := by
      unfold resume
      rcases hcalm with ⟨active, ht⟩ | ⟨ht, _⟩ <;> rw [ht]
    rw [hsame]
    exact ⟨hcalm, Nat.le_refl _⟩
  · exact calm_finish ht

theorem held_reach (w : World σ) (active : Active σ) (role : Role) :
    (w.reach active role).1.Held ∧ (w.reach active role).1.queue = w.queue := by
  unfold reach
  split
  · exact ⟨.inl (.inl ⟨_, rfl⟩), rfl⟩
  · exact ⟨.inr ⟨_, _, _, rfl⟩, rfl⟩

/-- A task that is taken is no longer in the queue. -/
theorem held_takeTask (b : Backend σ) (h : w.Calm) :
    w.takeTask.1.Held ∧ w.takeTask.1.queue.length ≤ w.queue.length - 1 := by
  rcases h with ⟨active, ht⟩ | ⟨ht, hq⟩
  swap
  · have hsame : w.takeTask = (w, []) := by
      unfold takeTask dequeue
      rw [ht]
      dsimp only
      rw [ht]
    rw [hsame, hq]
    exact ⟨.inl (.inr ⟨ht, hq⟩), Nat.le_refl _⟩
  have hwork := work_works b w
  unfold work at hwork
  rw [ht] at hwork
  dsimp only at hwork
  unfold takeTask
  generalize w.dequeue = next at hwork ⊢
  obtain ⟨w', events⟩ := next
  dsimp only at hwork ⊢
  cases hwork with
  | rest hr =>
    have hq : w.queue = [] := by
      rcases hr with hgone | hq
      · rw [ht] at hgone
        cases hgone
      · exact hq
    rw [ht]
    exact ⟨.inl (.inl ⟨_, ht⟩), by simp [hq]⟩
  | serve _ _ hq | release _ _ hq => exact ⟨.inl (.inl ⟨_, rfl⟩), by simp [hq]⟩
  | decline _ _ hq | ignore _ hq | halt _ hq | discard _ hq =>
    simp only [thread_modifyInbox, ht]
    exact ⟨.inl (.inl ⟨_, rfl⟩), by simp [hq]⟩
  | collapse | shutdown => exact ⟨.inl (.inr ⟨rfl, rfl⟩), Nat.zero_le _⟩
  | heed _ hq =>
    dsimp only
    rw [(held_reach _ _ _).2]
    exact ⟨(held_reach _ _ _).1, by simp [hq]⟩
  | miss ht' | reach ht' | lose ht' | finish ht' | fail ht' | crash ht' | report ht' =>
    rw [ht] at ht'
    cases ht'

theorem calm_runTask (b : Backend σ) (h : w.Calm) :
    (w.runTask b).1.Calm ∧ (w.runTask b).1.queue.length ≤ w.queue.length - 1 := by
  obtain ⟨hheld, hlength⟩ := held_takeTask b h
  obtain ⟨hcalm, hless⟩ := calm_resume (b := b) hheld
  exact ⟨hcalm, Nat.le_trans hless hlength⟩

theorem calm_runTasks (b : Backend σ) (n : Nat) (h : w.Calm) (hn : w.queue.length ≤ n) :
    (runTasks b n w).1.Calm ∧ (runTasks b n w).1.queue = [] := by
  induction n generalizing w with
  | zero => exact ⟨h, List.eq_nil_of_length_eq_zero (Nat.le_zero.mp hn)⟩
  | succ n ih =>
    obtain ⟨hcalm, hlength⟩ := calm_runTask b h
    have hn : (w.runTask b).1.queue.length ≤ n := by omega
    exact ih hcalm hn

/-- When the thread has worked until nothing is left to do, nothing is left to do. -/
theorem calm_settle (b : Backend σ) (h : w.Held) :
    (w.settle b).1.Calm ∧ (w.settle b).1.queue = [] := by
  obtain ⟨hcalm, _⟩ := calm_resume (b := b) h
  exact calm_runTasks b _ hcalm (Nat.le_refl _)

theorem held_settle (b : Backend σ) (h : w.Held) : (w.settle b).1.Held := .inl (calm_settle b h).1

theorem held_stop (b : Backend σ) (h : w.Held) : (w.stop b).1.Held := by
  unfold stop
  split
  · exact h
  · rename_i session _
    have hflag : Held { w.modifyInbox session .requestStop with running := none } := h
    exact held_settle b (held_post hflag)

/-! ### The answer to a start -/

/-- The owner reads the answer that the thread has left. -/
def answered (w : World σ) (session : Nat) : World σ × Except Fault Nat :=
  match w.answer with
  | none => (w, .error startLost)
  | some (.error fault) => (w, .error fault)
  | some (.ok ()) => ({ w with running := some session }, .ok session)

/-- The world with one more session, which nobody has answered for. -/
def asked (w : World σ) (config : Config Float32) : World σ :=
  { w with inboxes := w.inboxes ++ [.ofConfig config], answer := none }

theorem start_of_listening {config : Config Float32} {factory : Factory σ} {clock : Clock}
    {posted : World σ} (hrunning : ¬w.running.isSome) (hvalid : config.validate = .ok ())
    (hlistening : (w.asked config).listening = true)
    (hposted : (w.asked config).post (.start w.inboxes.length config factory clock) = posted) :
    w.start b config factory clock =
      (((posted.settle b).1.answered w.inboxes.length).1,
        ((posted.settle b).1.answered w.inboxes.length).2, (posted.settle b).2) := by
  unfold asked at hlistening hposted
  simp only [start, hrunning, hvalid, hlistening, hposted, Bool.not_true, Bool.false_eq_true,
    if_false]
  unfold answered
  generalize posted.settle b = settled
  obtain ⟨w', events⟩ := settled
  cases w'.answer with
  | none => rfl
  | some answer => cases answer <;> rfl

theorem held_start (b : Backend σ) (h : w.Held) (config : Config Float32) (factory : Factory σ)
    (clock : Clock) : (w.start b config factory clock).1.Held := by
  by_cases hrunning : w.running.isSome
  · simpa [start, hrunning] using h
  cases hvalid : config.validate with
  | error fault => simpa [start, hrunning, hvalid] using h
  | ok =>
    cases hlistening : (w.asked config).listening with
    | false =>
      have hsame : (w.start b config factory clock).1 = w.asked config := by
        unfold asked at hlistening ⊢
        simp [start, hrunning, hvalid, hlistening]
      rw [hsame]
      exact h
    | true =>
      have hasked : (w.asked config).Held := h
      rw [start_of_listening hrunning hvalid hlistening rfl]
      unfold answered
      split <;> exact held_settle b (held_post hasked)

theorem held_submit (h : w.Held) (n : Nat) (role : Role) (frame : Frame) :
    (w.submit n role frame).1.Held := by
  unfold submit
  split
  · exact h
  · dsimp only
    split
    · exact held_post h
    · exact h

theorem held_settleHeld (b : Backend σ) (n : Nat) (h : w.Held) : (settleHeld n w).1.Held := by
  induction n generalizing w with
  | zero => exact h
  | succ n ih =>
    unfold settleHeld
    split
    · rename_i active ht
      exact ih (held_takeTask b (.inl ⟨active, ht⟩)).1
    · exact h

/-! ### The end of the thread -/

/-- The thread is to be ended, or has ended. -/
def Ending (w : World σ) : Prop := Task.shutdown ∈ w.queue ∨ w.thread = .gone

theorem ending_works {events : List Event} (hw : Works b w w' events) (h : w.Ending) :
    w'.Ending := by
  -- A task that is not the end of the thread leaves the end in the queue.
  have hlater : ∀ {active task queue}, w.thread = .idle active → w.queue = task :: queue →
      task ≠ .shutdown → Task.shutdown ∈ queue := by
    intro active task queue ht hq hne
    rcases h with h | h
    · rw [hq] at h
      exact (List.mem_cons.mp h).resolve_left hne.symm
    · rw [ht] at h
      cases h
  cases hw with
  | rest => exact h
  | collapse | shutdown | crash => exact .inr rfl
  | serve _ ht hq | decline _ ht hq | ignore ht hq | discard ht hq | heed ht hq | halt ht hq
  | release _ ht hq => exact .inl (hlater ht hq (by rintro ⟨⟩))
  | miss ht | reach ht | lose ht | finish ht | fail ht | report ht =>
    refine .inl (h.resolve_right ?_)
    rw [ht]
    rintro ⟨⟩

/-- A thread that is told to end is to be ended, and nobody is told when it has ended. -/
theorem ending_post : (w.post .shutdown).Ending := by
  cases hlistening : w.listening with
  | true =>
    rw [post_of_listening hlistening]
    exact .inl (List.mem_append_right _ List.mem_cons_self)
  | false =>
    rw [post_of_gone hlistening]
    unfold listening at hlistening
    cases ht : w.thread with
    | gone => exact .inr ht
    | idle | reaching | uploading | failing =>
      rw [ht] at hlistening
      cases hlistening

theorem Goes.ending {events : List Event} (h : Goes b w w' events) (hending : w.Ending) :
    w'.Ending := by
  induction h with
  | stay => exact hending
  | step _ ih => exact ih (ending_works (work_works b _) hending)

/-- A thread that was told to end has ended when nothing is left to do. -/
theorem gone_settle (hheld : w.Held) (hending : w.Ending) : (w.settle b).1.thread = .gone := by
  have h := (goes_settle b w).ending hending
  have hempty := (calm_settle b hheld).2
  unfold Ending at h
  rw [hempty] at h
  exact h.resolve_left List.not_mem_nil

section

variable {active : Active σ} {queue : List (Task σ)} {role : Role} {inbox : Inbox}

/-- What is left of the world when the thread has dealt with a frame, and what happened after the
turn of the loop. -/
def afterFrame (w : World σ) (active : Active σ) (role : Role) (turn : Turn σ (Option Attempt)) :
    World σ × List Event :=
  let idle : Thread σ := .idle (some { active with loop := turn.loop })
  match turn.outcome with
  | .done _ => ({ w.setInbox active.session turn.inbox with thread := idle }, [])
  | .failed fault =>
    ({ w.setInbox active.session turn.inbox.requestStop.clearSlots with
        thread := idle
        faults := w.faults ++ [fault] },
      [.notice (.sessionFaulted role fault)])
  | .crashed _ =>
    ({ w.setInbox active.session turn.inbox with thread := .gone, queue := [] }, [.drop])

theorem resume_idle {active : Option (Active σ)} (ht : w.thread = .idle active) :
    w.resume b = (w, []) := by
  unfold resume
  rw [ht]

/-- The end of an upload is the rest of the turn. -/
theorem resume_afterFrame {frame : Frame} (ht : w.thread = .uploading active role frame)
    (hi : w.inbox? active.session = some inbox) :
    w.resume b =
      ((w.afterFrame active role (active.loop.process b inbox role frame)).1,
        (active.loop.process b inbox role frame).events ++
          (w.afterFrame active role (active.loop.process b inbox role frame)).2) := by
  unfold resume finishUpload afterFrame
  rw [ht]
  dsimp only
  rw [hi]
  dsimp only
  cases (active.loop.process b inbox role frame).outcome with
  | done => simp
  | crashed => simp [crash]
  | failed fault =>
    have hset := fun inbox => setInbox_eq_modifyInbox (fun _ => inbox) hi
    simp only [hset, reportFault, modifyInbox, List.modify_modify_eq]
    rfl

/-- The thread picks up what the session gives it. -/
theorem takeTask_frame (ht : w.thread = .idle (some active))
    (hq : w.queue = .frameReady role :: queue) (hi : w.inbox? active.session = some inbox) :
    w.takeTask =
      match inbox.receive role with
      | (none, inbox) => ({ w.setInbox active.session inbox with queue }, [])
      | (some frame, inbox) =>
        ({ w.setInbox active.session inbox with queue, thread := .uploading active role frame },
          [.call (.upload role frame)]) := by
  have hset := fun f => setInbox_eq_modifyInbox f hi
  have hdequeue : w.dequeue = ({ w with queue }.heed active role, []) := by
    unfold dequeue
    rw [ht, hq]
  have hstop : isStopping { w with queue } active.session = inbox.stopping := isStopping_eq hi
  unfold heed at hdequeue
  rw [hstop] at hdequeue
  unfold takeTask Inbox.receive
  cases hs : inbox.stopping with
  | true =>
    rw [hs, if_pos rfl] at hdequeue
    rw [hdequeue, if_pos rfl]
    dsimp only
    rw [thread_modifyInbox, ht, hset]
    simp only [modifyInbox, ht]
  | false =>
    have hslot : slot? { w with queue, thread := .reaching active role } active.session role =
        inbox.slot role := slot?_eq hi role
    rw [hs, if_neg Bool.false_ne_true] at hdequeue
    rw [hdequeue, if_neg Bool.false_ne_true]
    dsimp only
    unfold reach
    rw [hslot]
    cases inbox.slot role with
    | none =>
      dsimp only
      rw [setInbox_self hi]
      simp [ht]
    | some frame =>
      dsimp only
      rw [hset (·.withdraw role)]
      rfl

/-- When the thread is told of a frame and nobody comes in between, it does what the loop does
with the waiting frame: it picks it up, uploads it and draws. After a fault the session is
stopping and nothing waits, and the fault is reported. -/
theorem runTask_frame (ht : w.thread = .idle (some active))
    (hq : w.queue = .frameReady role :: queue) (hi : w.inbox? active.session = some inbox) :
    w.runTask b =
      (({ w with queue }.afterFrame active role (active.loop.handleFrame b inbox role)).1,
        (active.loop.handleFrame b inbox role).events ++
          ({ w with queue }.afterFrame active role (active.loop.handleFrame b inbox role)).2) := by
  unfold runTask Loop.handleFrame
  rw [takeTask_frame ht hq hi]
  generalize inbox.receive role = received
  obtain ⟨frame, inbox'⟩ := received
  cases frame with
  | none =>
    have hrest : resume b { w.setInbox active.session inbox' with queue } =
        ({ w.setInbox active.session inbox' with queue }, []) := resume_idle ht
    dsimp only
    rw [hrest]
    simp [afterFrame, setInbox, ht]
  | some frame =>
    have hgiven : inbox? { w.setInbox active.session inbox' with
        queue, thread := .uploading active role frame } active.session = some inbox' := by
      obtain ⟨hlength, _⟩ := List.getElem?_eq_some_iff.mp hi
      exact List.getElem?_set_self hlength
    dsimp only
    rw [resume_afterFrame rfl hgiven]
    unfold afterFrame setInbox
    simp only [List.set_set]
    cases (active.loop.process b inbox' role frame).outcome <;> rfl

end

end World

end PictureInPicture
