-- The thread is told of every frame that waits, and told once. Slots and queue walk in step as
-- long as nobody comes in between a submission, whatever happens in between submissions.
import PictureInPicture.Proofs.Session.Isolation
import PictureInPicture.Proofs.Session.Orderly

namespace PictureInPicture

variable {σ : Type} {b : Backend σ}

namespace World

/-- The thread was told of a frame of the session, and has not looked for it. -/
def reaches (w : World σ) (n : Nat) (role : Role) : Bool :=
  match w.thread with
  | .reaching active r => active.session = n && r = role
  | _ => false

end World

namespace Course

variable {c c' : Course σ}

/-- Slots, queue and thread walk in step. The notifications stand in the queue before the orders
of the owner, and all of them are for the session that the thread draws for. A frame that waits
is in one of them, or the thread is on its way to it. -/
structure Awake (c : Course σ) : Prop where
  queue : c.world.queue = c.told.map (fun t => .frameReady t.2) ++ c.world.orders
  told : ∀ t ∈ c.told, c.world.session? = some t.1
  failing : ∀ active fault, c.world.thread = .failing active fault →
    c.world.isStopping active.session = true
  count : ∀ n r, c.world.session? = some n → c.world.isStopping n = false →
    c.told.count (n, r) + (c.world.reaches n r).toNat = (c.world.slot? n r).isSome.toNat

/-! ## The head of the queue -/

/-- An order at the head of the queue means that no notification waits. -/
theorem told_of_order (hc : Awake c) {task : Task σ} {queue : List (Task σ)}
    (hq : c.world.queue = task :: queue) (ht : task.role? = none) : c.told = [] := by
  have hqueue := hc.queue
  rw [hq] at hqueue
  cases htold : c.told with
  | nil => rfl
  | cons t rest =>
    rw [htold, List.map_cons, List.cons_append] at hqueue
    rw [(List.cons.inj hqueue).1] at ht
    cases ht

/-- A notification at the head of the queue is the first one that was sent. -/
theorem told_of_ready (hc : Awake c) {r : Role} {queue : List (Task σ)}
    (hq : c.world.queue = .frameReady r :: queue) :
    ∃ m rest, c.told = (m, r) :: rest ∧
      queue = rest.map (fun t => .frameReady t.2) ++ c.world.orders := by
  have hqueue := hc.queue
  rw [hq] at hqueue
  cases htold : c.told with
  | nil =>
    rw [htold, List.map_nil, List.nil_append] at hqueue
    have hmem : Task.frameReady r ∈ c.world.orders := by
      rw [← hqueue]
      exact List.mem_cons_self
    have hnone := (List.mem_filter.mp hmem).2
    cases hnone
  | cons t rest =>
    obtain ⟨m, s⟩ := t
    rw [htold, List.map_cons, List.cons_append] at hqueue
    obtain ⟨hhead, htail⟩ := List.cons.inj hqueue
    cases hhead
    exact ⟨m, rest, rfl, htail⟩

theorem orders_of_ready {w : World σ} {r : Role} {queue : List (Task σ)}
    (hq : w.queue = .frameReady r :: queue) : w.orders = queue.filter (·.role?.isNone) := by
  simp [World.orders, hq, Task.role?]

/-- A session that takes frames is the running one, and the owner is at rest. -/
theorem running_of_taking (h : Sound c) {n : Nat} (hn : n ∈ c.endpoints)
    (hs : c.world.isStopping n = false) :
    c.world.running = some n ∧ c.duty = .free ∧ c.world.orders = [] ∧ c.footing.Serves n := by
  have hr : c.world.running = some n := by
    by_contra hne
    have hstop := h.stopping n hn hne
    rw [hs] at hstop
    cases hstop
  obtain ⟨hd, _, ho, hserves⟩ := served_of_running h hr
  exact ⟨hr, hd, ho, hserves⟩

/-- The thread draws for a session that takes frames, unless it has ended. -/
theorem session?_of_taking (h : Sound c) {n : Nat} (hn : n ∈ c.endpoints)
    (hs : c.world.isStopping n = false) (hl : c.world.listening = true) :
    c.world.session? = some n := by
  rcases (running_of_taking h hn hs).2.2.2 with hsome | ⟨_, hgone⟩
  · exact hsome
  · exact absurd (hl.symm.trans hgone) (by decide)

/-! ## What every deed keeps -/

theorem awake_new : Awake (new σ) where
  queue := rfl
  told := by simp [new]
  failing := by simp [new, World.new]
  count := by simp [new, World.new, World.session?, World.active?]

theorem awake_manages (hm : Manages c c') (hc : Awake c) : Awake c' := by
  have hspare := spares_manages hm
  have hsession := World.session?_of_thread hspare.thread
  have hreach : ∀ n r, c'.world.reaches n r = c.world.reaches n r := by
    intro n r
    unfold World.reaches
    rw [hspare.thread]
  refine ⟨?_, fun t ht => ?_, fun active fault ht => ?_, fun n r hs hstop => ?_⟩
  · obtain ⟨more, hqueue, hmore⟩ := hspare.queue
    have horders : c'.world.orders = c.world.orders ++ more := by
      unfold World.orders
      rw [hqueue, List.filter_append]
      congr 1
      refine List.filter_eq_self.mpr fun task hmem => ?_
      rw [hmore task hmem]
      rfl
    rw [hqueue, horders, hspare.told, ← List.append_assoc, ← hc.queue]
  · rw [hsession]
    rw [hspare.told] at ht
    exact hc.told t ht
  · rw [hspare.thread] at ht
    exact hspare.stopping _ (hc.failing active fault ht)
  · have hflag : c.world.isStopping n = false := by
      by_contra hne
      rw [hspare.stopping n (by simpa using hne)] at hstop
      cases hstop
    rw [hsession] at hs
    rw [hspare.told, hreach, hspare.slot]
    exact hc.count n r hs hflag

/-- A submission that fills no slot and tells nobody. -/
theorem awake_same_slots (hc : Awake c) {f : Inbox → Inbox} {n : Nat} {role : Role} {frame : Frame}
    {result : Except BufferFault Submission} {story : List Happening}
    (hf : ∀ i, (f i).stopping = i.stopping)
    (hslot : ∀ m r, c.world.session? = some m →
      ((c.world.modifyInbox n f).slot? m r).isSome = (c.world.slot? m r).isSome) :
    Awake (c.handed n role frame (c.world.modifyInbox n f) result story) where
  queue := hc.queue
  told := hc.told
  failing := by
    intro active fault ht
    rw [← hc.failing active fault ht]
    exact World.isStopping_modifyInbox hf n active.session
  count := by
    intro m r hs hstop
    have hflag : c.world.isStopping m = false := by
      rw [← hstop]
      exact (World.isStopping_modifyInbox hf n m).symm
    have hcount := hc.count m r hs hflag
    rw [← hslot m r hs] at hcount
    exact hcount

theorem awake_hands (h : Sound c) (hc : Awake c) {n : Nat} {role : Role} {frame : Frame}
    (hn : n ∈ c.endpoints) (hand : Hands c n role frame c') : Awake c' := by
  cases hand with
  | ignore hs => exact ⟨hc.queue, hc.told, hc.failing, hc.count⟩
  | refuse hi hs hv =>
    refine awake_same_slots hc (fun _ => rfl) fun m r _ => ?_
    rw [World.slot?_modifyInbox_of_slot]
    intro i r
    exact Inbox.slot_modifyStats i role r _
  | @replace inbox hi hs hv hslot =>
    refine awake_same_slots hc (fun _ => rfl) fun m r _ => ?_
    rw [World.slot?_modifyInbox]
    split
    · rename_i hnm
      subst hnm
      rw [hi, World.slot?_eq hi, Option.bind_some]
      have hkeep := Inbox.slot_modifyStats (inbox.park role frame) role r
        fun s => { s with dropped := s.dropped + 1 }
      change (((inbox.park role frame).countDropped role).slot r).isSome = _
      rw [Inbox.countDropped, hkeep, Inbox.slot_park]
      split
      · rename_i hr
        rw [← hr, hslot]
        rfl
      · rfl
    · rfl
  | @queue inbox hi hs hv hslot hl =>
    have hsession := session?_of_taking h hn hs hl
    have horders := (running_of_taking h hn hs).2.2.1
    have hqueue := hc.queue
    rw [horders, List.append_nil] at hqueue
    refine ⟨?_, fun t ht => ?_, fun active fault ht => ?_, fun m r hm hstop => ?_⟩
    · have hnone : ({ c.world.modifyInbox n (·.park role frame) with
          queue := c.world.queue ++ [.frameReady role] } : World σ).orders = [] := by
        unfold World.orders at horders ⊢
        rw [List.filter_append, horders]
        rfl
      calc c.world.queue ++ [.frameReady role]
          = (c.told ++ [(n, role)]).map (fun t => .frameReady t.2) ++ [] := by
            rw [List.append_nil, List.map_append, ← hqueue]
            rfl
        _ = _ := congrArg _ hnone.symm
    · rcases List.mem_append.mp ht with hold | hnew
      · exact hc.told t hold
      · rw [List.mem_singleton.mp hnew]
        exact hsession
    · rw [← hc.failing active fault ht]
      exact World.isStopping_modifyInbox (f := (·.park role frame)) (fun _ => rfl) n active.session
    · obtain rfl : n = m := Option.some.inj (hsession.symm.trans hm)
      have hcount := hc.count n r hm hs
      change (c.told ++ [(n, role)]).count (n, r) + (c.world.reaches n r).toNat =
        ((c.world.modifyInbox n (·.park role frame)).slot? n r).isSome.toNat
      rw [World.slot?_modifyInbox, if_pos rfl, hi, Option.bind_some, Inbox.slot_park,
        List.count_append, List.count_singleton]
      rw [World.slot?_eq hi] at hcount
      by_cases hr : role = r
      · subst hr
        rw [hslot] at hcount
        simp only [BEq.rfl, if_true, Option.isSome_some, Bool.toNat_true]
        simp only [Bool.toNat_false] at hcount
        omega
      · have hne : ((n, role) == (n, r)) = false := by simpa using hr
        rw [if_neg hr, hne]
        simpa using hcount
  | @miss inbox hi hs hv hslot hl =>
    refine awake_same_slots hc (fun _ => rfl) fun m r hsession => ?_
    rw [session?_of_gone hl] at hsession
    cases hsession

/-! ### The thread goes on -/

/-- A thread that has ended has nothing before it. -/
theorem awake_gone {world : World σ} (hl : world.listening = false) (hq : world.queue = [])
    (story : List Happening) : Awake { c with world, told := [], story } where
  queue := by
    change world.queue = [] ++ world.queue.filter _
    rw [hq]
    rfl
  told := by simp
  failing := by
    intro active fault ht
    change world.thread = _ at ht
    simp [World.listening, ht] at hl
  count := by
    intro n r hs
    rw [session?_of_gone hl] at hs
    cases hs

/-- Nobody has filled a slot of a session before its endpoints are handed out. -/
theorem slot?_of_stranger (h : Sound c) (hsource : Sourced c) {n : Nat} (hn : n ∉ c.endpoints)
    (r : Role) : c.world.slot? n r = none := by
  cases hs : c.world.slot? n r with
  | none => rfl
  | some frame =>
    obtain ⟨e, he, rfl, _⟩ := errand_of_waiting hsource (hsource.slot n r frame hs)
    exact absurd (h.errand_endpoint e he) hn

/-- The thread takes an order out of the queue. -/
theorem queue_of_order (hc : Awake c) {task : Task σ} {queue : List (Task σ)}
    (hq : c.world.queue = task :: queue) (ht : task.role? = none) :
    queue = queue.filter (·.role?.isNone) := by
  have hqueue := hc.queue
  rw [told_of_order hc hq ht, List.map_nil, List.nil_append] at hqueue
  unfold World.orders at hqueue
  rw [hq, List.filter_cons, ht] at hqueue
  exact (List.cons.inj hqueue).2

/-- The notifications that are still to be heeded when the thread has gone on. -/
def toldAfter (c : Course σ) (world : World σ) : List (Nat × Role) :=
  if world.listening then if c.world.isToldNext then c.told.tail else c.told else []

section

variable {world : World σ} {events : List Event} {active : Active σ} {role : Role}

/-- When the thread takes an order no notification is left, and the slots of the session that it
draws for then have to be empty. -/
theorem awake_order (hc : Awake c) {task : Task σ} {queue : List (Task σ)}
    {before : Option (Active σ)} (hq : c.world.queue = task :: queue)
    (horder : task.role? = none) (ht : c.world.thread = .idle before)
    (ht' : ∃ after, world.thread = .idle after) (hq' : world.queue = queue)
    (story : List Happening)
    (hslot : ∀ n r, world.session? = some n → world.isStopping n = false →
      world.slot? n r = none) : Awake { c with world, told := c.toldAfter world, story } := by
  have htold : c.toldAfter world = [] := by
    have hnext : c.world.isToldNext = false := by
      unfold World.isToldNext
      rw [ht, hq]
      cases task <;> first | rfl | cases horder
    unfold toldAfter
    rw [hnext, told_of_order hc hq horder]
    simp
  obtain ⟨after, ht'⟩ := ht'
  rw [htold]
  refine ⟨?_, fun t hmem => ?_, fun active fault hfail => ?_, fun n r hs hstop => ?_⟩
  · change world.queue = world.orders
    unfold World.orders
    rw [hq']
    exact queue_of_order hc hq horder
  · cases hmem
  · exact absurd (ht'.symm.trans hfail) (by simp)
  · change [].count _ + (world.reaches n r).toNat = (world.slot? n r).isSome.toNat
    rw [hslot n r hs hstop]
    simp [World.reaches, ht']

/-- The thread heeds the first notification. -/
theorem awake_ready (hc : Awake c) {queue : List (Task σ)}
    (ht : c.world.thread = .idle (some active)) (hq : c.world.queue = .frameReady role :: queue)
    (hq' : world.queue = queue) (hl : world.listening = true)
    (hs : world.session? = some active.session)
    (hfail : ∀ active fault, world.thread ≠ .failing active fault) (story : List Happening)
    (hcount : ∀ rest r, c.told = (active.session, role) :: rest →
      world.isStopping active.session = false →
      rest.count (active.session, r) + (world.reaches active.session r).toNat =
        (world.slot? active.session r).isSome.toNat) :
    Awake { c with world, told := c.toldAfter world, story } := by
  obtain ⟨m, rest, htold, hrest⟩ := told_of_ready hc hq
  have hsession : c.world.session? = some active.session := by
    simp [World.session?, World.active?, ht]
  obtain rfl : active.session = m := by
    have htop := hc.told (m, role) (by rw [htold]; exact List.mem_cons_self)
    exact Option.some.inj (hsession.symm.trans htop)
  have hafter : c.toldAfter world = rest := by
    simp [toldAfter, World.isToldNext, ht, hq, hl, htold]
  rw [hafter]
  refine ⟨?_, fun t hmem => ?_, fun active' fault hf => ?_, fun n r hn hstop => ?_⟩
  · change world.queue = _ ++ world.orders
    unfold World.orders
    rw [hq']
    rw [orders_of_ready hq] at hrest
    exact hrest
  · have hold := hc.told t (by rw [htold]; exact List.mem_cons_of_mem _ hmem)
    exact hs.trans (hsession.symm.trans hold)
  · exact absurd hf (hfail active' fault)
  · obtain rfl : active.session = n := Option.some.inj (hs.symm.trans hn)
    exact hcount rest r htold hstop

/-- The thread goes on with a frame of the session that it draws for. -/
theorem awake_turn (hc : Awake c) (hs : c.world.session? = some active.session)
    (hnext : c.world.isToldNext = false) (hl : world.listening = true)
    (hq : world.queue = c.world.queue) (hs' : world.session? = some active.session)
    (hfail : ∀ active fault, world.thread = .failing active fault →
      world.isStopping active.session = true) (story : List Happening)
    (hcount : ∀ r, world.isStopping active.session = false →
      c.told.count (active.session, r) + (world.reaches active.session r).toNat =
        (world.slot? active.session r).isSome.toNat) :
    Awake { c with world, told := c.toldAfter world, story } := by
  have hafter : c.toldAfter world = c.told := by simp [toldAfter, hnext, hl]
  rw [hafter]
  refine ⟨?_, fun t ht => ?_, hfail, fun n r hn hstop => ?_⟩
  · change world.queue = _ ++ world.queue.filter _
    rw [hq]
    exact hc.queue
  · exact hs'.trans (hs.symm.trans (hc.told t ht))
  · obtain rfl : active.session = n := Option.some.inj (hs'.symm.trans hn)
    exact hcount r hstop

/-- The frame that the thread was told of is picked up. -/
theorem awake_reach (hc : Awake c) {frame : Frame} (ht : c.world.thread = .reaching active role)
    (hs : c.world.slot? active.session role = some frame) (story : List Happening) :
    let world : World σ :=
      { c.world.modifyInbox active.session (·.withdraw role) with
        thread := .uploading active role frame }
    Awake { c with world, told := c.toldAfter world, story } := by
  have hsession : c.world.session? = some active.session := by
    simp [World.session?, World.active?, ht]
  refine awake_turn hc hsession ?_ ?_ ?_ ?_ ?_ story fun r hstop => ?_
  · simp [World.isToldNext, ht]
  · rfl
  · rfl
  · rfl
  · simp
  · have hflag : c.world.isStopping active.session = false := by
      have hkeep := World.isStopping_modifyInbox (w := c.world) (f := (·.withdraw role))
        (fun _ => rfl) active.session active.session
      exact hkeep.symm.trans hstop
    have hcount := hc.count active.session r hsession hflag
    have hslot : (c.world.modifyInbox active.session (·.withdraw role)).slot? active.session r =
        if role = r then none else c.world.slot? active.session r := by
      rw [World.slot?_modifyInbox, if_pos rfl]
      cases hi : c.world.inbox? active.session with
      | none => simp [World.slot?, hi]
      | some i => rw [Option.bind_some, Inbox.slot_withdraw, World.slot?_eq hi]
    change _ + _ = ((c.world.modifyInbox active.session _).slot? active.session r).isSome.toNat
    rw [hslot]
    by_cases hr : role = r
    · subst hr
      simpa [World.reaches, ht, hs] using hcount
    · simpa [World.reaches, ht, hr] using hcount

/-- An upload comes to its end, and the session goes on. -/
theorem awake_finish (hc : Awake c) {frame : Frame} {inbox inbox' : Inbox} {l : Loop σ}
    (ht : c.world.thread = .uploading active role frame)
    (hi : c.world.inbox? active.session = some inbox) (hkeep : Inbox.SameSlots inbox' inbox)
    (story : List Happening) :
    let world : World σ :=
      { c.world.modifyInbox active.session fun _ => inbox' with
        thread := .idle (some { active with loop := l }) }
    Awake { c with world, told := c.toldAfter world, story } := by
  have hsession : c.world.session? = some active.session := by
    simp [World.session?, World.active?, ht]
  refine awake_turn hc hsession ?_ ?_ ?_ ?_ ?_ story fun r hstop => ?_
  · simp [World.isToldNext, ht]
  · rfl
  · rfl
  · rfl
  · simp
  · have hinbox := inbox?_modifyInbox_self (fun _ => inbox') hi
    have hflag : c.world.isStopping active.session = false := by
      rw [World.isStopping_eq hi, ← hkeep.stopping]
      exact (World.isStopping_eq hinbox).symm.trans hstop
    have hcount := hc.count active.session r hsession hflag
    change _ + _ = ((c.world.modifyInbox active.session _).slot? active.session r).isSome.toNat
    rw [World.slot?_eq hinbox, hkeep.slot, ← World.slot?_eq hi]
    simpa [World.reaches, ht] using hcount

/-- What keeps a session from taking frames keeps slots and notifications of it from mattering. -/
theorem awake_stopped (hc : Awake c) (hs : c.world.session? = some active.session)
    (hnext : c.world.isToldNext = false) (hl : world.listening = true)
    (hq : world.queue = c.world.queue) (hs' : world.session? = some active.session)
    (hstop : world.isStopping active.session = true) (story : List Happening) :
    Awake { c with world, told := c.toldAfter world, story } := by
  refine awake_turn hc hs hnext hl hq hs' (fun active' fault ht => ?_) story fun r hflag => ?_
  · have hsame : world.session? = some active'.session := by
      simp [World.session?, World.active?, ht]
    rw [← Option.some.inj (hs'.symm.trans hsame)]
    exact hstop
  · exact absurd (hflag.symm.trans hstop) (by decide)

theorem awake_rest (h : Sound c) (hc : Awake c) (hr : c.world.thread = .gone ∨ c.world.queue = [])
    (story : List Happening) :
    Awake { c with told := c.toldAfter c.world, story } := by
  unfold toldAfter
  cases hl : c.world.listening with
  | false => exact awake_gone hl (h.gone_queue hl) story
  | true =>
    have hq : c.world.queue = [] := by
      rcases hr with ht | hq
      · simp [World.listening, ht] at hl
      · exact hq
    have hnext : c.world.isToldNext = false := by
      cases ht : c.world.thread <;> simp [World.isToldNext, ht, hq]
    rw [hnext]
    exact ⟨hc.queue, hc.told, hc.failing, hc.count⟩

theorem awake_work (h : Sound c) (hsource : Sourced c) (hc : Awake c)
    (hw : World.Works b c.world world events) (story : List Happening) :
    Awake { c with world, told := c.toldAfter world, story } := by
  have keeps : ∀ n, c.world.isStopping n = true → world.isStopping n = true :=
    fun n => World.isStopping_works hw
  have draws : ∀ {active : Active σ}, c.world.active? = some active →
      c.world.session? = some active.session := by
    intro active ha
    simp [World.session?, ha]
  cases hw with
  | rest hr => exact awake_rest h hc hr story
  | collapse | shutdown | crash => exact awake_gone rfl rfl story
  | serve _ ht hq =>
    refine awake_order hc hq rfl ht ⟨_, rfl⟩ rfl story fun n r hn _ => ?_
    obtain rfl := Option.some.inj hn
    obtain ⟨_, hd, _⟩ := Footing.starting_of_orders h.agrees (footing_orders hq rfl)
    exact slot?_of_stranger h hsource (Footing.agrees_starting h.agrees hd).2.2.1 r
  | decline _ ht hq =>
    refine awake_order hc hq rfl ht ?_ ?_ story fun n r hn _ => ?_
    · exact ⟨_, ht⟩
    · rfl
    obtain ⟨_, _, _, _, _, hnone, _⟩ :=
      Footing.starting_of_orders h.agrees (footing_orders hq rfl)
    exact absurd (hn.symm.trans hnone) (Option.some_ne_none _)
  | halt ht hq =>
    refine awake_order hc hq rfl ht ?_ ?_ story fun n r hn _ => ?_
    · exact ⟨_, ht⟩
    · rfl
    change c.world.session? = some n at hn
    simp [World.session?, World.active?, ht] at hn
  | release _ ht hq =>
    refine awake_order hc hq rfl ht ⟨_, rfl⟩ rfl story fun n r hn _ => ?_
    simp [World.session?, World.active?] at hn
  | ignore ht hq =>
    obtain ⟨m, rest, htold, _⟩ := told_of_ready hc hq
    have hsession := hc.told (m, _) (by rw [htold]; exact List.mem_cons_self)
    simp [World.session?, World.active?, ht] at hsession
  | @discard active queue role ht hq hs =>
    have hactive : c.world.active? = some active := by simp [World.active?, ht]
    refine awake_ready hc ht hq rfl ?_ ?_ ?_ story fun rest r _ hstop => ?_
    · simp [World.listening, ht]
    · exact draws hactive
    · simp [ht]
    · exact absurd (hstop.symm.trans (keeps _ hs)) (by decide)
  | @heed active queue role ht hq hs =>
    have hactive : c.world.active? = some active := by simp [World.active?, ht]
    refine awake_ready hc ht hq rfl rfl rfl (by simp) story fun rest r htold hstop => ?_
    have hcount := hc.count active.session r (draws hactive) hs
    rw [htold, List.count_cons] at hcount
    change rest.count (active.session, r) + _ = (c.world.slot? active.session r).isSome.toNat
    rw [← hcount]
    by_cases hr : role = r
    · simp [World.reaches, ht, hr]
    · simp [World.reaches, ht, hr]
  | @miss active role ht hs =>
    have hactive : c.world.active? = some active := by simp [World.active?, ht]
    refine awake_turn hc (draws hactive) ?_ ?_ ?_ ?_ ?_ story fun r hstop => ?_
    · simp [World.isToldNext, ht]
    · rfl
    · rfl
    · rfl
    · simp
    · have hcount := hc.count active.session r (draws hactive) hstop
      change _ + _ = (c.world.slot? active.session r).isSome.toNat
      by_cases hr : role = r
      · subst hr
        simp [World.reaches, ht, hs] at hcount
      · simpa [World.reaches, ht, hr] using hcount
  | reach ht hs => exact awake_reach hc ht hs story
  | @lose active _ _ ht hi =>
    have hlt := h.session_lt active.session (by simp [World.session?, World.active?, ht])
    simp [World.inbox?, hlt] at hi
  | @finish active role frame inbox attempt ht hi ho =>
    exact awake_finish hc ht hi
      (Loop.processes_sameSlots (Loop.process_processes b active.loop inbox role frame)) story
  | @fail active _ _ inbox _ ht hi ho =>
    have hactive : c.world.active? = some active := by simp [World.active?, ht]
    refine awake_stopped hc (draws hactive) ?_ ?_ ?_ ?_ ?_ story
    · simp [World.isToldNext, ht]
    · rfl
    · rfl
    · rfl
    · exact World.isStopping_eq (inbox?_modifyInbox_self (fun _ => Inbox.requestStop _) hi)
  | @report active fault ht =>
    have hactive : c.world.active? = some active := by simp [World.active?, ht]
    refine awake_stopped hc (draws hactive) ?_ ?_ ?_ ?_ ?_ story
    · simp [World.isToldNext, ht]
    · rfl
    · rfl
    · rfl
    · exact keeps _ (hc.failing active fault ht)

end

theorem awake_play (b : Backend σ) (deeds : List (Deed σ)) : Awake (play b deeds) := by
  refine play_induction b deeds awake_new ?_
  rintro c c' ⟨acts, rfl⟩ hc hstep
  have h := sound_run b acts
  cases hstep with
  | hand hn hand => exact awake_hands h hc hn hand
  | work hw => exact awake_work h (sourced_run b acts) hc hw _
  | owner hm => exact awake_manages hm hc

/-! ## A frame that waits was announced -/

theorem length_of_told {told : List (Nat × Role)} {n : Nat} (ht : ∀ t ∈ told, t.1 = n) :
    told.length = told.count (n, .primary) + told.count (n, .secondary) := by
  induction told with
  | nil => rfl
  | cons t told ih =>
    have hrest := ih fun t' hmem => ht t' (List.mem_cons_of_mem _ hmem)
    obtain ⟨m, r⟩ := t
    obtain rfl : m = n := ht _ List.mem_cons_self
    rw [List.length_cons, List.count_cons, List.count_cons, hrest]
    cases r <;> simp <;> omega

/-- In whatever order whole submissions, the thread and the owner go on, also after sessions that
came and went: of a session that takes frames, a frame waits in a slot exactly when one
notification of it is in the queue, the one that the thread is heeding aside. Nothing else is
announced in the queue, so it never holds more than two notifications. -/
theorem a_waiting_frame_is_announced_once (b : Backend σ) (deeds : List (Deed σ)) (n : Nat)
    (hn : n ∈ (play b deeds).endpoints) (hs : (play b deeds).world.isStopping n = false)
    (hl : (play b deeds).world.listening = true) :
    let c := play b deeds
    (∀ role, c.world.reaches n role = false →
      c.told.count (n, role) = if (c.world.slot? n role).isSome then 1 else 0) ∧
    (∀ role, c.world.reaches n role = true →
      (n, role) ∉ c.told ∧ (c.world.slot? n role).isSome = true) ∧
    c.world.queue.filterMap Task.role? = c.told.map Prod.snd ∧
    (∀ t ∈ c.told, t.1 = n) ∧ c.told.length ≤ 2 := by
  intro c
  have hc : Awake c := awake_play b deeds
  have h : Sound c := by
    obtain ⟨acts, hrun⟩ := play_run b deeds
    change Sound (play b deeds)
    rw [hrun]
    exact sound_run b acts
  have hsession := session?_of_taking h hn hs hl
  have htold : ∀ t ∈ c.told, t.1 = n := fun t ht =>
    Option.some.inj ((hc.told t ht).symm.trans hsession)
  refine ⟨fun role hr => ?_, fun role hr => ?_, h.told_queue, htold, ?_⟩
  · have hcount := hc.count n role hsession hs
    rw [hr] at hcount
    cases hslot : (c.world.slot? n role).isSome <;> simpa [hslot] using hcount
  · have hcount := hc.count n role hsession hs
    rw [hr] at hcount
    cases hslot : (c.world.slot? n role).isSome with
    | false => simp [hslot] at hcount
    | true =>
      rw [hslot, Bool.toNat_true] at hcount
      exact ⟨List.count_eq_zero.mp (by omega), rfl⟩
  · have hone : ∀ role, c.told.count (n, role) ≤ 1 := by
      intro role
      have hcount := hc.count n role hsession hs
      have hle := Bool.toNat_le (c.world.slot? n role).isSome
      omega
    rw [length_of_told htold]
    have h₁ := hone .primary
    have h₂ := hone .secondary
    omega

/-- The frame of the second source waits while the thread is inside the upload of the first. -/
theorem a_second_frame_is_announced :
    let c := play (obliging (.done ()))
      (opening () ++ [.submit 0 .primary (pixel 9 9 9), .work, .work,
        .submit 0 .secondary (pixel 5 5 5)])
    (0 ∈ c.endpoints ∧ c.world.isStopping 0 = false ∧ c.world.listening = true) ∧
      c.told.length ≤ 2 :=
  ⟨by decide +kernel, (a_waiting_frame_is_announced_once _ _ 0 (by decide +kernel)
    (by decide +kernel) (by decide +kernel)).2.2.2.2⟩

/-- A crash of the thread takes the queue with it. A frame of the other source still waits then,
and nobody will ever be told. -/
theorem a_crash_leaves_a_frame_unannounced :
    let c := play (obliging (.crashed .staged))
      (opening () ++ [.submit 0 .primary (pixel 9 9 9), .work, .work,
        .submit 0 .secondary (pixel 5 5 5), .work])
    0 ∈ c.endpoints ∧ c.world.isStopping 0 = false ∧ c.world.reaches 0 .secondary = false ∧
      (c.world.slot? 0 .secondary).isSome = true ∧ (0, .secondary) ∉ c.told ∧
      c.world.queue.filterMap Task.role? = [] := by
  decide +kernel

end Course

end PictureInPicture
