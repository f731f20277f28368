-- The count of refused frames is written and never read. A world in which more frames were
-- refused goes on in the same way, and keeps what it had in excess.
import PictureInPicture.Proofs.Session.Moves

namespace PictureInPicture

/-! ## The state of a session -/

/-- A source of which so many more frames were refused. -/
def Inlet.refusing (k : Nat) (inlet : Inlet) : Inlet :=
  { inlet with stats := { inlet.stats with rejected := inlet.stats.rejected + k } }

namespace Inbox

/-- A session that refused so many more frames of each source. -/
def refusing (k : Both Nat) (i : Inbox) : Inbox where
  stopping := i.stopping
  inlets := ⟨i.inlets.primary.refusing k.primary, i.inlets.secondary.refusing k.secondary⟩
  declared := i.declared
  rendered := i.rendered
  skipped := i.skipped

section

variable (i : Inbox) (k : Both Nat) (r : Role)

@[simp] theorem stopping_refusing : (i.refusing k).stopping = i.stopping := rfl

@[simp] theorem declared_refusing : (i.refusing k).declared = i.declared := rfl

@[simp] theorem rendered_refusing : (i.refusing k).rendered = i.rendered := rfl

@[simp] theorem skipped_refusing : (i.refusing k).skipped = i.skipped := rfl

@[simp] theorem fresh_refusing : (i.refusing k).fresh = i.fresh := rfl

@[simp] theorem slot_refusing : (i.refusing k).slot r = i.slot r := by
  cases r <;> rfl

/-- What does not look at the refused frames of a source is the same for both. -/
theorem map_refusing {β : Type} {f : Inlet → β} (hf : ∀ k inlet, f (inlet.refusing k) = f inlet) :
    (i.refusing k).inlets.map f = i.inlets.map f := by
  unfold refusing Both.map
  rw [hf, hf]

theorem stats_refusing :
    (i.refusing k).stats.sources.get r =
      { i.stats.sources.get r with
        rejected := (i.stats.sources.get r).rejected + k.get r } := by
  cases r <;> rfl

theorem refusing_none : i.refusing (.twice 0) = i := rfl

/-- What leaves the refused frames of a source alone keeps the excess. -/
theorem modifyInlet_refusing {f : Inlet → Inlet}
    (hf : ∀ k inlet, f (inlet.refusing k) = (f inlet).refusing k) :
    (i.refusing k).modifyInlet r f = (i.modifyInlet r f).refusing k := by
  cases r <;> simp [modifyInlet, refusing, Both.modify, Both.get, Both.set, hf]

@[simp] theorem requestStop_refusing : (i.refusing k).requestStop = i.requestStop.refusing k := rfl

@[simp] theorem withdraw_refusing : (i.refusing k).withdraw r = (i.withdraw r).refusing k :=
  modifyInlet_refusing i k r fun _ _ => rfl

@[simp] theorem park_refusing (frame : Frame) :
    (i.refusing k).park r frame = (i.park r frame).refusing k :=
  modifyInlet_refusing i k r fun _ _ => rfl

@[simp] theorem clearSlots_refusing : (i.refusing k).clearSlots = i.clearSlots.refusing k := by
  unfold clearSlots
  rw [withdraw_refusing, withdraw_refusing]

@[simp] theorem markFresh_refusing : (i.refusing k).markFresh r = (i.markFresh r).refusing k :=
  modifyInlet_refusing i k r fun _ _ => rfl

@[simp] theorem countUploaded_refusing :
    (i.refusing k).countUploaded r = (i.countUploaded r).refusing k :=
  modifyInlet_refusing i k r fun _ _ => rfl

@[simp] theorem countDropped_refusing :
    (i.refusing k).countDropped r = (i.countDropped r).refusing k :=
  modifyInlet_refusing i k r fun _ _ => rfl

@[simp] theorem countRejected_refusing :
    (i.refusing k).countRejected r = (i.countRejected r).refusing k := by
  refine modifyInlet_refusing i k r fun k inlet => ?_
  simp only [Inlet.refusing, Nat.add_right_comm]

@[simp] theorem countRendered_refusing :
    (i.refusing k).countRendered = i.countRendered.refusing k := rfl

@[simp] theorem countSkipped_refusing :
    (i.refusing k).countSkipped = i.countSkipped.refusing k := rfl

@[simp] theorem clearFresh_refusing : (i.refusing k).clearFresh = i.clearFresh.refusing k := rfl

/-- One more refused frame is one more in excess. -/
theorem refusing_countRejected :
    (i.refusing k).countRejected r = i.refusing (k.modify r (· + 1)) := by
  cases r <;> rfl

end

end Inbox

/-- A submission does the same to a session that refused more frames. -/
theorem Errand.next_refusing (e : Errand) (i : Inbox) (k : Both Nat) (listening : Bool) :
    e.next (i.refusing k) listening =
      ((e.next i listening).1.refusing k, (e.next i listening).2) := by
  cases hs : e.stage with
  | checking =>
    simp only [next, hs, Inbox.inspect, Inbox.declared_refusing]
    cases e.frame.validateFor e.role (i.declared.get e.role) with
    | ok => rfl
    | error => simp only [Inbox.countRejected_refusing]
  | telling displaced =>
    simp only [next, hs]
    cases displaced with
    | true => simp only [Inbox.countDropped_refusing]
    | false => rfl
  | parking => simp only [next, hs, Inbox.park_refusing, Inbox.slot_refusing]
  | confirming =>
    simp only [next, hs, Inbox.stopping_refusing]
    rfl
  | withdrawing => simp only [next, hs, Inbox.withdraw_refusing]
  | done => simp only [next, hs]

/-! ## The loop -/

namespace Loop

variable {σ : Type} (b : Backend σ) (l : Loop σ) (i : Inbox) (k : Both Nat)

theorem presented_refusing (stamp : Stamp) (layers : Nat) :
    l.presented (i.refusing k) stamp layers =
      ((l.presented i stamp layers).1.refusing k, (l.presented i stamp layers).2) := by
  simp only [presented, Inbox.fresh_refusing, Inbox.clearFresh_refusing,
    Inbox.countRendered_refusing, Inbox.rendered_refusing, Inbox.skipped_refusing]
  rw [Inbox.map_refusing _ _ fun _ _ => rfl]
  rfl

theorem tryRender_refusing :
    l.tryRender b (i.refusing k) =
      { l.tryRender b i with inbox := (l.tryRender b i).inbox.refusing k } := by
  unfold tryRender
  split
  · rfl
  · dsimp only
    split
    · rw [presented_refusing]
    · rw [Inbox.countSkipped_refusing, Inbox.fresh_refusing]
    · rfl
    · rfl

theorem admitUpload_refusing (role : Role) :
    l.admitUpload (i.refusing k) role =
      ((l.admitUpload i role).1, (l.admitUpload i role).2.1.refusing k,
        (l.admitUpload i role).2.2) := by
  simp only [admitUpload, Inbox.markFresh_refusing, Inbox.countUploaded_refusing]
  cases role <;> rfl

/-- An upload goes the same way, however many frames were refused. -/
theorem process_refusing (role : Role) (frame : Frame) :
    l.process b (i.refusing k) role frame =
      { l.process b i role frame with inbox := (l.process b i role frame).inbox.refusing k } := by
  unfold process
  dsimp only
  split
  · split
    · rfl
    · rw [Inbox.countRejected_refusing]
  · rfl
  · rw [admitUpload_refusing]
    simp only [tryRender_refusing]

end Loop

/-! ## The thread -/

namespace World

variable {σ : Type} (b : Backend σ) (w : World σ) (x : Nat → Both Nat)

/-- A world whose sessions refused so many more frames. -/
def refusing (x : Nat → Both Nat) (w : World σ) : World σ :=
  { w with inboxes := w.inboxes.mapIdx fun n i => i.refusing (x n) }

@[simp] theorem queue_refusing : (w.refusing x).queue = w.queue := rfl

@[simp] theorem thread_refusing : (w.refusing x).thread = w.thread := rfl

@[simp] theorem running_refusing : (w.refusing x).running = w.running := rfl

@[simp] theorem answer_refusing : (w.refusing x).answer = w.answer := rfl

@[simp] theorem listening_refusing : (w.refusing x).listening = w.listening := rfl

@[simp] theorem focus_refusing : (w.refusing x).focus = w.focus := rfl

@[simp] theorem isToldNext_refusing : (w.refusing x).isToldNext = w.isToldNext := rfl

@[simp] theorem length_refusing : (w.refusing x).inboxes.length = w.inboxes.length :=
  List.length_mapIdx

@[simp] theorem inbox?_refusing (n : Nat) :
    (w.refusing x).inbox? n = (w.inbox? n).map (·.refusing (x n)) := List.getElem?_mapIdx

@[simp] theorem isStopping_refusing (n : Nat) : (w.refusing x).isStopping n = w.isStopping n := by
  unfold isStopping
  rw [inbox?_refusing]
  cases w.inbox? n <;> rfl

@[simp] theorem slot?_refusing (n : Nat) (r : Role) :
    (w.refusing x).slot? n r = w.slot? n r := by
  unfold slot?
  rw [inbox?_refusing]
  cases w.inbox? n with
  | none => rfl
  | some i => exact i.slot_refusing (x n) r

theorem setInbox_refusing (n : Nat) (i : Inbox) :
    (w.refusing x).setInbox n (i.refusing (x n)) = (w.setInbox n i).refusing x := by
  unfold setInbox refusing
  rw [List.mapIdx_set]

theorem modifyInbox_refusing {f : Inbox → Inbox}
    (hf : ∀ k i, f (i.refusing k) = (f i).refusing k) (n : Nat) :
    (w.refusing x).modifyInbox n f = (w.modifyInbox n f).refusing x := by
  cases hi : w.inbox? n with
  | none =>
    have hge : w.inboxes.length ≤ n := List.getElem?_eq_none_iff.mp hi
    unfold modifyInbox refusing
    rw [List.modify_eq_self (by simpa using hge), List.modify_eq_self hge]
  | some i =>
    have hi' : (w.refusing x).inbox? n = some (i.refusing (x n)) := by simp [hi]
    rw [← setInbox_eq_modifyInbox f hi, ← setInbox_eq_modifyInbox f hi', hf, setInbox_refusing]

@[simp] theorem post_refusing (task : Task σ) :
    (w.refusing x).post task = (w.post task).refusing x := by
  unfold post
  rw [listening_refusing]
  split <;> rfl

/-- A session that starts has refused nothing. -/
theorem ask_refusing (config : Config Float32) (hx : x w.inboxes.length = .twice 0) :
    ({ w.refusing x with
        inboxes := (w.refusing x).inboxes ++ [.ofConfig config], answer := none } : World σ) =
      ({ w with inboxes := w.inboxes ++ [.ofConfig config], answer := none } : World σ).refusing
        x := by
  unfold refusing
  rw [List.mapIdx_concat, hx, Inbox.refusing_none]

/-- One more refused frame of a session is one more in excess. -/
theorem refusing_countRejected {n : Nat} {role : Role} {y : Nat → Both Nat}
    (hown : y n = (x n).modify role (· + 1)) (hothers : ∀ m, m ≠ n → y m = x m) :
    (w.refusing x).modifyInbox n (·.countRejected role) = w.refusing y := by
  unfold refusing modifyInbox
  congr 1
  apply List.ext_getElem?
  intro m
  rw [List.getElem?_modify, List.getElem?_mapIdx, List.getElem?_mapIdx]
  cases w.inboxes[m]? with
  | none => rfl
  | some i =>
    refine congrArg some ?_
    beta_reduce
    by_cases hm : n = m
    · subst hm
      rw [if_pos rfl, hown, Inbox.refusing_countRejected]
    · rw [if_neg hm, hothers m (Ne.symm hm)]

/-! ### The steps of the thread -/

theorem startTask_refusing (session : Nat) (config : Config Float32) (factory : Factory σ)
    (clock : Clock) :
    (w.refusing x).startTask session config factory clock =
      ((w.startTask session config factory clock).1.refusing x,
        (w.startTask session config factory clock).2) := by
  unfold startTask
  dsimp only
  split <;> rfl

theorem heed_refusing (active : Active σ) (role : Role) :
    (w.refusing x).heed active role = (w.heed active role).refusing x := by
  unfold heed
  rw [isStopping_refusing]
  split
  · exact modifyInbox_refusing w x (fun k i => i.clearSlots_refusing k) active.session
  · rfl

theorem reach_refusing (active : Active σ) (role : Role) :
    (w.refusing x).reach active role =
      ((w.reach active role).1.refusing x, (w.reach active role).2) := by
  unfold reach
  rw [slot?_refusing]
  split
  · rfl
  · rw [modifyInbox_refusing w x fun k i => i.withdraw_refusing k role]
    rfl

theorem finishUpload_refusing (active : Active σ) (role : Role) (frame : Frame) :
    (w.refusing x).finishUpload b active role frame =
      ((w.finishUpload b active role frame).1.refusing x,
        (w.finishUpload b active role frame).2) := by
  unfold finishUpload
  rw [inbox?_refusing]
  cases w.inbox? active.session with
  | none => rfl
  | some i =>
    simp only [Option.map_some, Loop.process_refusing, setInbox_refusing]
    cases (active.loop.process b i role frame).outcome with
    | done | crashed => rfl
    | failed fault =>
      have hstop := modifyInbox_refusing
        (w.setInbox active.session (active.loop.process b i role frame).inbox) x
        (fun k i => i.requestStop_refusing k) active.session
      exact Prod.ext (congrArg (fun v : World σ => { v with
        thread :=
          .failing { active with loop := (active.loop.process b i role frame).loop } fault })
        hstop) rfl

theorem reportFault_refusing (active : Active σ) (fault : Fault) :
    (w.refusing x).reportFault active fault = (w.reportFault active fault).refusing x := by
  unfold reportFault
  rw [modifyInbox_refusing w x fun k i => i.clearSlots_refusing k]
  rfl

theorem stopTask_refusing (active : Option (Active σ)) :
    (w.refusing x).stopTask active =
      ((w.stopTask active).1.refusing x, (w.stopTask active).2) := by
  unfold stopTask
  cases active with
  | none => rfl
  | some active =>
    have hclear := modifyInbox_refusing w x (fun k i => i.clearSlots_refusing k) active.session
    have hlook := inbox?_refusing (w.modifyInbox active.session Inbox.clearSlots) x active.session
    unfold inbox? at hlook
    dsimp only [inbox?]
    rw [hclear, hlook]
    cases (w.modifyInbox active.session Inbox.clearSlots).inboxes[active.session]? with
    | none => rfl
    | some i =>
      dsimp only [Option.map_some]
      rw [i.map_refusing _ fun _ _ => rfl]
      rfl

theorem dequeue_refusing :
    (w.refusing x).dequeue = (w.dequeue.1.refusing x, w.dequeue.2) := by
  unfold dequeue
  rw [thread_refusing, queue_refusing]
  split
  · rename_i active task queue ht hq
    cases task with
    | start session config factory clock =>
      exact startTask_refusing { w with queue } x session config factory clock
    | frameReady role =>
      cases active with
      | none => rfl
      | some active => exact congrArg (·, []) (heed_refusing { w with queue } x active role)
    | stop => exact stopTask_refusing { w with queue } x active
    | shutdown => rfl
  · rfl

/-- The thread does the same, however many frames were refused. -/
theorem work_refusing : (w.refusing x).work b = ((w.work b).1.refusing x, (w.work b).2) := by
  unfold work
  rw [thread_refusing]
  split
  · exact dequeue_refusing w x
  · exact reach_refusing w x _ _
  · exact finishUpload_refusing b w x _ _ _
  · rw [reportFault_refusing]
  · rfl

end World

end PictureInPicture
