-- A thread to which no frame matters: it draws for nobody, or for a session that takes no frames.
-- It works through the notifications that are left and comes to what the owner wants of it.
import PictureInPicture.Proofs.Session.Handshake
import PictureInPicture.Proofs.Session.Settling

namespace PictureInPicture

variable {σ : Type} {b : Backend σ}

namespace World

variable {w : World σ}

/-! ## Notifications that nobody heeds -/

/-- The thread is between two tasks, and the session that it draws for takes no frames. -/
def Quiet (w : World σ) : Prop :=
  ∃ active, w.thread = .idle active ∧ ∀ a, active = some a → w.isStopping a.session = true

/-- Without an order the queue holds notifications only. -/
theorem queue_of_no_orders (h : w.orders = []) :
    ∃ roles : List Role, w.queue = roles.map .frameReady := by
  unfold orders at h
  generalize w.queue = queue at h
  induction queue with
  | nil => exact ⟨[], rfl⟩
  | cons task queue ih =>
    cases task with
    | frameReady role =>
      obtain ⟨roles, hroles⟩ := ih (by simpa [Task.role?] using h)
      exact ⟨role :: roles, by rw [hroles]; rfl⟩
    | start | stop | shutdown => simp [Task.role?] at h

/-- A task that is done when it was taken. -/
theorem runTask_of_dequeue {w' : World σ} {active : Option (Active σ)} {events : List Event}
    (hd : w.dequeue = (w', events)) (ht : w'.thread = .idle active) :
    w.runTask b = (w', events) := by
  have htake : w.takeTask = (w', events) := by
    unfold takeTask
    rw [hd]
    dsimp only
    rw [ht]
  unfold runTask
  rw [htake]
  dsimp only
  rw [resume_idle ht, List.append_nil]

/-- A notification that nobody heeds leaves the thread as it was. -/
theorem runTask_quiet (b : Backend σ) (h : w.Quiet) {role : Role} {queue : List (Task σ)}
    (hq : w.queue = .frameReady role :: queue) :
    ∃ inboxes, w.runTask b = ({ w with queue, inboxes }, []) ∧
      Quiet { w with queue, inboxes } ∧ (w.session? = none → inboxes = w.inboxes) := by
  obtain ⟨active, ht, hs⟩ := h
  cases active with
  | none =>
    have hrest : w.dequeue = ({ w with queue }, []) := by
      simp only [dequeue, ht, hq]
    exact ⟨w.inboxes, runTask_of_dequeue hrest ht, ⟨none, ht, fun _ h => by cases h⟩,
      fun _ => rfl⟩
  | some a =>
    have hstop := hs a rfl
    cases hi : w.inbox? a.session with
    | none => simp [isStopping, hi] at hstop
    | some i =>
      have hflag : i.stopping = true := (isStopping_eq hi).symm.trans hstop
      refine ⟨(w.setInbox a.session i.clearSlots).inboxes, ?_, ⟨some a, ht, fun a' ha' => ?_⟩,
        fun hnone => ?_⟩
      · rw [runTask_frame ht hq hi]
        simp [Loop.handleFrame, Inbox.receive, hflag, afterFrame, setInbox, ht]
      · cases ha'
        rw [setInbox_eq_modifyInbox Inbox.clearSlots hi]
        exact (isStopping_modifyInbox (f := Inbox.clearSlots) (fun _ => rfl) _ _).trans hstop
      · simp [session?, active?, ht] at hnone

theorem runTasks_succ (b : Backend σ) (n : Nat) (w : World σ) :
    runTasks b (n + 1) w =
      ((runTasks b n (w.runTask b).1).1,
        (w.runTask b).2 ++ (runTasks b n (w.runTask b).1).2) := rfl

/-- The thread comes to what is behind the notifications. -/
theorem runTasks_quiet (b : Backend σ) (h : w.Quiet) (roles : List Role) {rest : List (Task σ)}
    (hq : w.queue = roles.map .frameReady ++ rest) (k : Nat) :
    ∃ inboxes, runTasks b (roles.length + k) w = runTasks b k { w with queue := rest, inboxes } ∧
      (w.session? = none → inboxes = w.inboxes) := by
  induction roles generalizing w with
  | nil =>
    rw [List.map_nil, List.nil_append] at hq
    subst hq
    exact ⟨w.inboxes, by rw [List.length_nil, Nat.zero_add], fun _ => rfl⟩
  | cons role roles ih =>
    rw [List.map_cons, List.cons_append] at hq
    obtain ⟨inboxes, hrun, hquiet, hsame⟩ := runTask_quiet b h hq
    obtain ⟨inboxes', hrest, hsame'⟩ := ih hquiet rfl
    refine ⟨inboxes', ?_, fun hnone => ?_⟩
    · rw [List.length_cons, Nat.succ_add, runTasks_succ, hrun]
      dsimp only
      rw [hrest]
      rfl
    · exact (hsame' hnone).trans (hsame hnone)

/-- What the owner wants is done after the notifications, as if there were none. -/
theorem settle_quiet (b : Backend σ) (h : w.Quiet) (horders : w.orders = []) (task : Task σ) :
    ∃ inboxes, (w.post task).settle b = { w with queue := [task], inboxes }.runTask b ∧
      (w.session? = none → inboxes = w.inboxes) := by
  obtain ⟨active, ht, hs⟩ := h
  obtain ⟨roles, hroles⟩ := queue_of_no_orders horders
  have hlistening : w.listening = true := by
    unfold listening
    rw [ht]
  rw [post_of_listening hlistening, hroles]
  obtain ⟨inboxes, hrun, hsame⟩ :=
    runTasks_quiet b (w := { w with queue := roles.map .frameReady ++ [task] }) ⟨active, ht, hs⟩
      roles rfl 1
  refine ⟨inboxes, ?_, hsame⟩
  have hresume : resume b { w with queue := roles.map .frameReady ++ [task] } =
      ({ w with queue := roles.map .frameReady ++ [task] }, []) := resume_idle ht
  unfold settle
  rw [hresume]
  dsimp only
  rw [List.length_append, List.length_map, List.length_singleton, hrun]
  simp [runTasks]

/-! ## What the owner wants -/

section

variable {config : Config Float32} {factory : Factory σ} {clock : Clock}

/-- A thread that is stopped has no session, and is ready for one. -/
structure Stopped (w : World σ) : Prop where
  running : w.running = none
  thread : w.thread = .idle none
  orders : w.orders = []

theorem Stopped.quiet (h : w.Stopped) (config : Config Float32) : (w.asked config).Quiet :=
  ⟨none, h.thread, fun _ h => by cases h⟩

/-- The start of a session on a stopped thread is the work on its task. -/
theorem start_of_stopped (h : w.Stopped) (hvalid : config.validate = .ok ()) {w' : World σ}
    {active : Option (Active σ)} {events : List Event}
    (hmade : startTask { w.asked config with queue := [] } w.inboxes.length config factory clock =
      (w', events)) (ht : w'.thread = .idle active) :
    w.start b config factory clock =
      ((w'.answered w.inboxes.length).1, (w'.answered w.inboxes.length).2, events) := by
  have hlistening : (w.asked config).listening = true := by
    unfold listening asked
    rw [h.thread]
  have hrunning : ¬w.running.isSome := by simp [h.running]
  obtain ⟨inboxes, hsettle, hsame⟩ := settle_quiet b (h.quiet config) h.orders
    (.start w.inboxes.length config factory clock)
  have hinboxes := hsame (by simp [session?, active?, asked, h.thread])
  subst hinboxes
  have hdequeue : dequeue { w.asked config with
      queue := [.start w.inboxes.length config factory clock] } = (w', events) := by
    rw [← hmade]
    simp only [dequeue, asked, h.thread]
  rw [start_of_listening hrunning hvalid hlistening rfl, hsettle, runTask_of_dequeue hdequeue ht]

/-- On a stopped thread, a start with settings that are accepted and a backend that can be made
succeeds. -/
theorem start_succeeds (h : w.Stopped) (hvalid : config.validate = .ok ()) {backend : σ}
    (hmade : (factory config).outcome = .done backend) :
    w.start b config factory clock =
      ({ w with
          inboxes := w.inboxes ++ [.ofConfig config]
          queue := []
          thread := .idle (some ⟨w.inboxes.length, .ofConfig config clock backend⟩)
          running := some w.inboxes.length
          answer := some (.ok ()) },
        .ok w.inboxes.length,
        .create config.output :: (factory config).effects.map .effect ++
          [.notice (.sessionStarted (config.sources.map (·.size)) config.output
            config.layout.background config.startup)]) := by
  have hserved : startTask { w.asked config with queue := [] } w.inboxes.length config factory
      clock =
      ({ w.asked config with
          queue := []
          thread := .idle (some ⟨w.inboxes.length, .ofConfig config clock backend⟩)
          answer := some (.ok ()) },
        .create config.output :: (factory config).effects.map .effect ++
          [.notice (.sessionStarted (config.sources.map (·.size)) config.output
            config.layout.background config.startup)]) := by
    simp only [startTask, hmade]
  exact start_of_stopped h hvalid hserved rfl

end

/-- The stop of a session, when only notifications wait, gives its backend up and leaves the
thread stopped. -/
theorem stop_succeeds {a : Active σ} {i : Inbox} (ht : w.thread = .idle (some a))
    (hr : w.running = some a.session) (hi : w.inbox? a.session = some i) (horders : w.orders = []) :
    ∃ (inboxes : List Inbox) (notices : List Notice),
      w.stop b =
        ({ w with inboxes, queue := [], thread := .idle none, running := none },
          .drop :: notices.map .notice) := by
  have hquiet : Quiet { w.modifyInbox a.session .requestStop with running := none } := by
    refine ⟨some a, ht, fun a' ha' => ?_⟩
    cases ha'
    have hflag : (w.modifyInbox a.session .requestStop).isStopping a.session = true := by
      rw [isStopping_requestStop, hi]
      simp
    exact hflag
  have horders' : orders { w.modifyInbox a.session .requestStop with running := none } = [] :=
    horders
  obtain ⟨inboxes, hsettle, _⟩ := settle_quiet b hquiet horders' .stop
  have hstopped : ∃ (inboxes' : List Inbox) (notices : List Notice),
      dequeue { w with inboxes, queue := [.stop], running := none } =
        ({ w with inboxes := inboxes', queue := [], thread := .idle none, running := none },
          .drop :: notices.map .notice) := by
    simp only [dequeue, ht, stopTask]
    split
    · exact ⟨_, [], rfl⟩
    · exact ⟨_, [_], rfl⟩
  obtain ⟨inboxes', notices, hdequeue⟩ := hstopped
  refine ⟨inboxes', notices, ?_⟩
  unfold stop
  rw [hr]
  exact hsettle.trans (runTask_of_dequeue hdequeue rfl)

end World

/-- When the thread is between two tasks, the stop of the running session gives its backend up and
leaves the thread stopped. -/
theorem Course.stop_of_running {c : Course σ} (h : Sound c) {active : Active σ}
    (ht : c.world.thread = .idle (some active)) (hr : c.world.running = some active.session) :
    (∃ notices : List Notice, (c.world.stop b).2 = .drop :: notices.map .notice) ∧
      (c.world.stop b).1.Stopped ∧ (c.world.stop b).1.faults = c.world.faults := by
  have hlt := h.session_lt active.session (by simp [World.session?, World.active?, ht])
  have ho : c.world.orders = [] := (served_of_running h hr).2.2.1
  obtain ⟨inboxes, notices, hstop⟩ :=
    World.stop_succeeds (b := b) ht hr (List.getElem?_eq_getElem hlt) ho
  rw [hstop]
  exact ⟨⟨notices, rfl⟩, ⟨rfl, rfl, rfl⟩, rfl⟩

end PictureInPicture
