-- Owner and thread walk in step. Whatever happens in between, the owner knows which session
-- the thread draws for, and a session whose endpoints were handed out takes frames only while
-- it is the running one.
import PictureInPicture.Proofs.Session.Moves
import PictureInPicture.Proofs.Session.Turn

namespace PictureInPicture

variable {σ : Type} {b : Backend σ}

/-! ## The footing of a course -/

/-- The tasks of the owner that wait for the thread. -/
def World.orders (w : World σ) : List (Task σ) := w.queue.filter (·.role?.isNone)

/-- What owner and thread have to agree on. -/
structure Footing (σ : Type) where
  duty : Duty
  endpoints : List Nat
  terms : List (Terms σ)
  sessions : Nat
  running : Option Nat
  answer : Option (Except Fault Unit)
  session? : Option Nat
  listening : Bool
  orders : List (Task σ)

def Course.footing (c : Course σ) : Footing σ where
  duty := c.duty
  endpoints := c.endpoints
  terms := c.terms
  sessions := c.world.inboxes.length
  running := c.world.running
  answer := c.world.answer
  session? := c.world.session?
  listening := c.world.listening
  orders := c.world.orders

namespace Footing

/-- The thread draws for the session, or it has ended. -/
def Serves (f : Footing σ) (session : Nat) : Prop :=
  f.session? = some session ∨ f.session? = none ∧ f.listening = false

/-- The thread has the start of a session before it. -/
def AskedFor (f : Footing σ) (session : Nat) : Prop :=
  ∃ t, f.terms[session]? = some t ∧
    f.orders = [.start session t.config t.factory t.clock] ∧
    f.session? = none ∧ f.listening = true ∧ f.answer = none

/-- The start of a session is over, and its answer says whether the thread draws for it. -/
def Answered (f : Footing σ) (session : Nat) : Prop :=
  f.orders = [] ∧ (f.answer = some (.ok ()) → f.Serves session) ∧
    (f.answer ≠ some (.ok ()) → f.session? = none)

/-- What the thread is at, for each thing that the owner can be in the middle of. -/
def Agrees (f : Footing σ) : Prop :=
  match f.duty with
  | .free =>
    f.orders = [] ∧
      match f.running with
      | some session => session ∈ f.endpoints ∧ f.Serves session
      | none => f.session? = none
  | .starting session =>
    f.running = none ∧ session + 1 = f.sessions ∧ session ∉ f.endpoints ∧
      (f.AskedFor session ∨ f.Answered session)
  | .raised session _ =>
    f.running = none ∧ f.orders = [] ∧ session ∈ f.endpoints ∧ f.Serves session
  | .stopping session _ =>
    f.running = none ∧ session ∈ f.endpoints ∧
      (f.orders = [.stop] ∧ f.session? = some session ∨ f.orders = [] ∧ f.session? = none)
  | .leaving => f.running = none ∧ f.orders = [] ∧ f.session? = none
  | .joining =>
    f.running = none ∧ f.session? = none ∧ (f.orders = [.shutdown] ∨ f.orders = [])
  | .left => f.running = none ∧ f.session? = none ∧ f.orders = []

/-! ### The thread goes on -/

/-- What a step of the thread does to the footing. -/
inductive Turns (f : Footing σ) : Footing σ → Prop where
  | same : Turns f f
  | serve {session config factory clock rest backend}
      (ho : f.orders = .start session config factory clock :: rest)
      (hm : (factory config).outcome = .done backend) :
      Turns f { f with orders := rest, session? := some session, answer := some (.ok ()) }
  | decline (fault : Fault) {session config factory clock rest}
      (ho : f.orders = .start session config factory clock :: rest)
      (hm : (factory config).outcome = .failed fault) :
      Turns f { f with orders := rest, answer := some (.error fault) }
  | collapse {session config factory clock rest crash}
      (ho : f.orders = .start session config factory clock :: rest)
      (hm : (factory config).outcome = .crashed crash) :
      Turns f { f with orders := [], session? := none, listening := false }
  | release {rest} (ho : f.orders = .stop :: rest) :
      Turns f { f with orders := rest, session? := none }
  | crash {session} (hs : f.session? = some session) :
      Turns f { f with orders := [], session? := none, listening := false }
  | shutdown {rest} (ho : f.orders = .shutdown :: rest) :
      Turns f { f with orders := [], session? := none, listening := false }

/-- A start that waits is the one that the owner waits for. -/
theorem starting_of_orders {f : Footing σ} (h : f.Agrees) {session config factory clock rest}
    (ho : f.orders = .start session config factory clock :: rest) :
    rest = [] ∧ f.duty = .starting session ∧ f.AskedFor session := by
  obtain ⟨duty, endpoints, terms, sessions, running, answer, session?, listening, orders⟩ := f
  cases duty with
  | starting n =>
    obtain ⟨_, _, _, hask | hans⟩ := h
    · have hask' := hask
      obtain ⟨t, _, ho', _⟩ := hask'
      rw [ho] at ho'
      cases ho'
      exact ⟨rfl, rfl, hask⟩
    · exact absurd (ho.symm.trans hans.1) (List.cons_ne_nil _ _)
  | _ => simp_all [Agrees]

/-- A stop that waits is the one that the owner waits for, and the thread draws for its session. -/
theorem stopping_of_orders {f : Footing σ} (h : f.Agrees) {rest : List (Task σ)}
    (ho : f.orders = .stop :: rest) :
    ∃ session leaving, f.duty = .stopping session leaving ∧ f.session? = some session := by
  obtain ⟨duty, endpoints, terms, sessions, running, answer, session?, listening, orders⟩ := f
  cases duty <;> simp_all [Agrees, AskedFor, Answered]

/-- No session is running while the thread has an order before it. -/
theorem running_of_orders {f : Footing σ} (h : f.Agrees) (ho : f.orders ≠ []) :
    f.running = none := by
  obtain ⟨duty, endpoints, terms, sessions, running, answer, session?, listening, orders⟩ := f
  cases duty <;> simp_all [Agrees]

theorem agrees_turns {f f' : Footing σ} (h : f.Agrees) (ht : Turns f f') : f'.Agrees := by
  cases ht with
  | same => exact h
  | serve ho =>
    obtain ⟨rfl, hd, _⟩ := starting_of_orders h ho
    simp only [Agrees, hd] at h ⊢
    exact ⟨h.1, h.2.1, h.2.2.1, .inr ⟨rfl, fun _ => .inl rfl, fun hne => absurd rfl hne⟩⟩
  | decline fault ho =>
    obtain ⟨rfl, hd, _, _, _, hs, _⟩ := starting_of_orders h ho
    simp only [Agrees, hd] at h ⊢
    exact ⟨h.1, h.2.1, h.2.2.1, .inr ⟨rfl, fun hok => by simp at hok, fun _ => hs⟩⟩
  | collapse ho =>
    obtain ⟨rfl, hd, _, _, _, _, _, ha⟩ := starting_of_orders h ho
    simp only [Agrees, hd] at h ⊢
    refine ⟨h.1, h.2.1, h.2.2.1, .inr ⟨rfl, fun hok => ?_, fun _ => rfl⟩⟩
    rw [ha] at hok
    cases hok
  | release ho =>
    obtain ⟨duty, endpoints, terms, sessions, running, answer, session?, listening, orders⟩ := f
    cases duty <;> simp_all [Agrees, AskedFor, Answered]
  | shutdown ho =>
    obtain ⟨duty, endpoints, terms, sessions, running, answer, session?, listening, orders⟩ := f
    cases duty <;> simp_all [Agrees, AskedFor, Answered]
  | crash hs =>
    obtain ⟨duty, endpoints, terms, sessions, running, answer, session?, listening, orders⟩ := f
    cases duty with
    | free =>
      cases running with
      | none => simp_all [Agrees]
      | some n => exact ⟨rfl, h.2.1, .inr ⟨rfl, rfl⟩⟩
    | starting n =>
      obtain ⟨hr, hn, he, hask | hans⟩ := h
      · obtain ⟨_, _, _, hnone, _⟩ := hask
        exact absurd (hs.symm.trans hnone) (Option.some_ne_none _)
      · exact ⟨hr, hn, he, .inr ⟨rfl, fun _ => .inr ⟨rfl, rfl⟩, fun _ => rfl⟩⟩
    | _ => simp_all [Agrees, Serves]

/-- The session that the thread draws for after a step is the one of before, or the one that
the owner waits for. -/
theorem session?_turns {f f' : Footing σ} (h : f.Agrees) (ht : Turns f f') {n : Nat}
    (hn : f'.session? = some n) : f.session? = some n ∨ f.duty = .starting n := by
  cases ht with
  | same => exact .inl hn
  | serve ho =>
    cases hn
    exact .inr (starting_of_orders h ho).2.1
  | decline => exact .inl hn
  | collapse | release | crash | shutdown => cases hn

/-- The session that the owner waits for is the newest one, and nobody has its endpoints. -/
theorem agrees_starting {f : Footing σ} (h : f.Agrees) {n : Nat} (hd : f.duty = .starting n) :
    f.running = none ∧ n + 1 = f.sessions ∧ n ∉ f.endpoints ∧ (f.AskedFor n ∨ f.Answered n) := by
  simpa only [Agrees, hd] using h

end Footing

namespace World

variable {w : World σ}

/-- What never lowers a flag leaves a session that takes no frames as one. -/
theorem isStopping_modifyInbox_of {f : Inbox → Inbox} {n m : Nat}
    (hf : ∀ i, w.inbox? n = some i → i.stopping = true → (f i).stopping = true)
    (hm : w.isStopping m = true) : (w.modifyInbox n f).isStopping m = true := by
  unfold isStopping at hm ⊢
  rw [inbox?_modifyInbox]
  split
  · rename_i heq
    subst heq
    cases hi : w.inbox? n with
    | none => simp [hi] at hm
    | some i =>
      rw [hi] at hm
      exact hf i hi hm
  · exact hm

/-- The thread never lowers the flag of a session. -/
theorem isStopping_works {w' : World σ} {events : List Event} (h : Works b w w' events) {n : Nat}
    (hn : w.isStopping n = true) : w'.isStopping n = true := by
  cases h with
  | rest | serve | decline | collapse | ignore | heed | halt | shutdown | miss | lose => exact hn
  | discard | release | reach | report => exact isStopping_modifyInbox_of (fun _ _ hi => hi) hn
  | @finish active role frame inbox _ _ hi | @crash active role frame inbox _ _ hi =>
    refine isStopping_modifyInbox_of (fun i hi' hs => ?_) hn
    rw [hi] at hi'
    cases hi'
    rw [(Loop.processes_sameSlots (Loop.process_processes b active.loop inbox role frame)).stopping]
    exact hs
  | fail => exact isStopping_modifyInbox_of (fun _ _ _ => rfl) hn

end World

namespace Course

variable {c : Course σ}

theorem footing_orders {task : Task σ} {queue : List (Task σ)}
    (hq : c.world.queue = task :: queue) (ho : task.role? = none) :
    c.footing.orders = task :: queue.filter (·.role?.isNone) := by
  simp [footing, World.orders, hq, ho]

/-- The thread changes the footing in the ways that `Footing.Turns` lists. -/
theorem works_turns {world : World σ} {events : List Event}
    (h : World.Works b c.world world events) (told : List (Nat × Role)) (story : List Happening) :
    c.footing.Turns ({ c with world, told, story } : Course σ).footing := by
  have same : ({ c with world, told, story } : Course σ).footing = c.footing →
      c.footing.Turns ({ c with world, told, story } : Course σ).footing := by
    intro heq
    rw [heq]
    exact .same
  cases h with
  | rest => exact .same
  | ignore ht hq | discard ht hq | heed ht hq | miss ht hq | reach ht | lose ht | finish ht
  | fail ht | report ht =>
    apply same
    simp [footing, World.session?, World.active?, World.listening, World.orders, World.modifyInbox,
      World.reportFault, Task.role?, *]
  | serve _ ht hq hm =>
    have turn := Footing.Turns.serve (footing_orders hq rfl) hm
    simpa [footing, World.session?, World.active?, World.listening, World.orders, ht] using turn
  | @decline _ _ _ _ _ _ _ fault ht hq hm =>
    have turn := Footing.Turns.decline fault (footing_orders hq rfl) hm
    simpa [footing, World.session?, World.active?, World.listening, World.orders, ht] using turn
  | collapse _ ht hq hm =>
    have turn := Footing.Turns.collapse (footing_orders hq rfl) hm
    simpa [footing, World.session?, World.active?, World.listening, World.orders, ht] using turn
  | halt ht hq =>
    have turn := Footing.Turns.release (footing_orders hq rfl)
    simpa [footing, World.session?, World.active?, World.listening, World.orders, ht] using turn
  | release _ ht hq =>
    have turn := Footing.Turns.release (footing_orders hq rfl)
    simpa [footing, World.session?, World.active?, World.listening, World.orders,
      World.modifyInbox, ht] using turn
  | shutdown ht hq =>
    have turn := Footing.Turns.shutdown (footing_orders hq rfl)
    simpa [footing, World.session?, World.active?, World.listening, World.orders, ht] using turn
  | @crash active _ _ _ _ ht hi ho =>
    have hs : c.footing.session? = some active.session := by
      simp [footing, World.session?, World.active?, ht]
    have turn := Footing.Turns.crash hs
    simpa [footing, World.session?, World.active?, World.listening, World.orders,
      World.modifyInbox, ht] using turn

/-- What a submission does to its session is nothing to owner and thread. -/
theorem footing_onward (k : Nat) (e : Errand) (stage : Errand.Stage) (n : Nat) (f : Inbox → Inbox) :
    ({ c.onward k e stage with world := c.world.modifyInbox n f } : Course σ).footing =
      c.footing := by
  simp only [footing, World.length_modifyInbox]
  rfl

/-- A notification is no order. -/
theorem footing_tell (k : Nat) (e : Errand) (stage : Errand.Stage) :
    ({ c.onward k e stage with
      world := { c.world with queue := c.world.queue ++ [.frameReady e.role] }
      told := c.told ++ [(e.session, e.role)] } : Course σ).footing = c.footing := by
  simp only [footing, World.orders, List.filter_append, List.filter_cons, Task.role?,
    Option.isNone_some, Bool.false_eq_true, if_false, List.filter_nil, List.append_nil]
  rfl

/-- Owner and thread agree, and a session whose endpoints were handed out takes frames only
while it is the running one. -/
structure Sound (c : Course σ) : Prop where
  agrees : c.footing.Agrees
  terms_length : c.terms.length = c.world.inboxes.length
  endpoint_lt : ∀ n ∈ c.endpoints, n < c.world.inboxes.length
  session_lt : ∀ n, c.world.session? = some n → n < c.world.inboxes.length
  errand_endpoint : ∀ e ∈ c.errands, e.session ∈ c.endpoints
  told_endpoint : ∀ t ∈ c.told, t.1 ∈ c.endpoints
  told_queue : c.world.queue.filterMap Task.role? = c.told.map Prod.snd
  gone_queue : c.world.listening = false → c.world.queue = []
  stopping : ∀ n ∈ c.endpoints, c.world.running ≠ some n → c.world.isStopping n = true

/-- While a session is running, the owner does nothing else, and the thread draws for the session
or has ended. -/
theorem served_of_running (h : Sound c) {n : Nat} (hr : c.world.running = some n) :
    c.duty = .free ∧ n ∈ c.endpoints ∧ c.world.orders = [] ∧ c.footing.Serves n := by
  have hagree := h.agrees
  cases hd : c.duty with
  | free =>
    simp only [Footing.Agrees, footing, hd, hr] at hagree
    exact ⟨rfl, hagree.2.1, hagree.1, hagree.2.2⟩
  | _ => simp [Footing.Agrees, footing, hd, hr] at hagree

theorem sound_new : Sound (new σ) where
  agrees := ⟨rfl, rfl⟩
  terms_length := rfl
  endpoint_lt := by simp [new]
  session_lt := by simp [new, World.new, World.session?, World.active?]
  errand_endpoint := by simp [new]
  told_endpoint := by simp [new]
  told_queue := rfl
  gone_queue := fun _ => rfl
  stopping := by simp [new]

/-- A submission that comes to another stage, with what it did to its session. -/
theorem sound_onward {f : Inbox → Inbox} (h : Sound c) (hf : ∀ i, (f i).stopping = i.stopping)
    {k : Nat} {e : Errand} (he : c.errands[k]? = some e) (stage : Errand.Stage) (n : Nat) :
    Sound { c.onward k e stage with world := c.world.modifyInbox n f } where
  agrees := by
    rw [footing_onward]
    exact h.agrees
  terms_length := by
    rw [World.length_modifyInbox]
    exact h.terms_length
  endpoint_lt := by
    rw [World.length_modifyInbox]
    exact h.endpoint_lt
  session_lt := by
    rw [World.length_modifyInbox]
    exact h.session_lt
  errand_endpoint := by
    intro e' he'
    rcases List.mem_or_eq_of_mem_set he' with hm | rfl
    · exact h.errand_endpoint _ hm
    · exact h.errand_endpoint e (List.mem_of_getElem? he)
  told_endpoint := h.told_endpoint
  told_queue := h.told_queue
  gone_queue := h.gone_queue
  stopping := by
    intro m hm hr
    rw [← h.stopping m hm hr]
    exact World.isStopping_modifyInbox hf n m

/-- A submission that comes to another stage and does nothing to its session. -/
theorem sound_onward_same (h : Sound c) {k : Nat} {e : Errand} (he : c.errands[k]? = some e)
    (stage : Errand.Stage) : Sound (c.onward k e stage) := by
  have hid := sound_onward (f := id) h (fun _ => rfl) he stage 0
  rw [World.modifyInbox_id] at hid
  exact hid

/-- The thread is told of a frame. -/
theorem sound_tell (h : Sound c) {k : Nat} {e : Errand} (he : c.errands[k]? = some e)
    (hl : c.world.listening = true) (stage : Errand.Stage) :
    Sound
      { c.onward k e stage with
        world := { c.world with queue := c.world.queue ++ [.frameReady e.role] }
        told := c.told ++ [(e.session, e.role)] } where
  agrees := by
    rw [footing_tell]
    exact h.agrees
  terms_length := h.terms_length
  endpoint_lt := h.endpoint_lt
  session_lt := h.session_lt
  errand_endpoint := (sound_onward_same h he stage).errand_endpoint
  told_endpoint := by
    intro t ht
    rcases List.mem_append.mp ht with hm | hm
    · exact h.told_endpoint t hm
    · rw [List.mem_singleton.mp hm]
      exact h.errand_endpoint e (List.mem_of_getElem? he)
  told_queue := by
    simp only [List.filterMap_append, List.map_append, h.told_queue]
    rfl
  gone_queue := fun hgone => absurd (hl.symm.trans hgone) (by decide)
  stopping := h.stopping

/-- The thread goes on. -/
theorem sound_work (h : Sound c) {world : World σ} {events : List Event}
    (hw : World.Works b c.world world events) (story : List Happening) :
    Sound
      { c with
        world
        told :=
          if world.listening then if c.world.isToldNext then c.told.tail else c.told else []
        story } where
  agrees := Footing.agrees_turns h.agrees (works_turns hw _ _)
  terms_length := by
    rw [h.terms_length]
    cases hw <;> simp [World.reportFault]
  endpoint_lt := by
    intro n hn
    have hlt := h.endpoint_lt n hn
    cases hw <;> simpa [World.reportFault] using hlt
  session_lt := by
    intro n hn
    have hlen : world.inboxes.length = c.world.inboxes.length := by
      cases hw <;> simp [World.reportFault]
    rw [hlen]
    rcases Footing.session?_turns h.agrees (works_turns hw [] []) hn with hold | hnew
    · exact h.session_lt n hold
    · have hn := (Footing.agrees_starting h.agrees hnew).2.1
      change n + 1 = c.world.inboxes.length at hn
      omega
  errand_endpoint := h.errand_endpoint
  told_endpoint := by
    intro t ht
    apply h.told_endpoint t
    dsimp only at ht
    split at ht
    · split at ht
      · exact List.mem_of_mem_tail ht
      · exact ht
    · cases ht
  told_queue := by
    have hold := h.told_queue
    cases hw with
    | @ignore _ role ht hq | @discard _ _ role ht hq | @heed _ _ role ht hq =>
      rw [hq] at hold
      simp only [List.filterMap_cons, Task.role?] at hold
      simp only [World.listening, World.isToldNext, World.modifyInbox, ht, hq, if_true]
      rw [List.map_tail, ← hold]
      rfl
    | rest hr =>
      rcases hr with ht | hq
      · simp_all [World.listening, h.gone_queue]
      · cases ht : c.world.thread <;> simp_all [World.listening, World.isToldNext]
    | serve _ ht hq | decline _ ht hq | halt ht hq | release _ ht hq =>
      rw [hq] at hold
      simpa [World.listening, World.isToldNext, World.modifyInbox, ht, hq, List.filterMap_cons,
        Task.role?] using hold
    | collapse | shutdown | miss | reach | lose | finish | fail | crash | report =>
      simp_all [World.listening, World.isToldNext, World.modifyInbox, World.reportFault]
  gone_queue := by
    intro hgone
    have hold := h.gone_queue
    cases hw <;>
      simp_all [World.listening, World.modifyInbox, World.reportFault]
  stopping := fun n hn hr => by
    have hrun : world.running = c.world.running := by
      cases hw <;> rfl
    exact World.isStopping_works hw (h.stopping n hn (by rwa [hrun] at hr))

/-! ### The owner goes on -/

/-- The owner does something that touches no session and takes none for running. -/
theorem sound_order (h : Sound c) {world : World σ} {duty : Duty} {story : List Happening}
    (hi : world.inboxes = c.world.inboxes) (hs : world.session? = c.world.session?)
    (hr : world.running = c.world.running)
    (hq : world.queue.filterMap Task.role? = c.world.queue.filterMap Task.role?)
    (hg : world.listening = false → world.queue = [])
    (ha : ({ c with world, duty, story } : Course σ).footing.Agrees) :
    Sound { c with world, duty, story } where
  agrees := ha
  terms_length := by
    rw [hi]
    exact h.terms_length
  endpoint_lt := by
    rw [hi]
    exact h.endpoint_lt
  session_lt := by
    rw [hi, hs]
    exact h.session_lt
  errand_endpoint := h.errand_endpoint
  told_endpoint := h.told_endpoint
  told_queue := hq.trans h.told_queue
  gone_queue := hg
  stopping := by
    intro n hn hne
    have hold := h.stopping n hn (by rwa [hr] at hne)
    unfold World.isStopping World.inbox? at hold ⊢
    rw [hi]
    exact hold

/-- The owner sends an order to the thread. -/
theorem sound_post (h : Sound c) {task : Task σ} (ht : task.role? = none) {duty : Duty}
    (ha : ({ c with world := c.world.post task, duty } : Course σ).footing.Agrees) :
    Sound { c with world := c.world.post task, duty } := by
  cases hl : c.world.listening with
  | true =>
    rw [World.post_of_listening hl] at ha ⊢
    refine sound_order h rfl rfl rfl ?_ ?_ ha
    · simp [List.filterMap_append, ht]
    · intro hgone
      exact absurd (hl.symm.trans hgone) (by decide)
  | false =>
    rw [World.post_of_gone hl] at ha ⊢
    exact sound_order h rfl rfl rfl rfl h.gone_queue ha

/-- A start that the thread comes to is made on the terms of its session. -/
theorem asked_of_start (h : Sound c) {session config factory clock} {queue : List (Task σ)}
    (hq : c.world.queue = .start session config factory clock :: queue) :
    c.duty = .starting session ∧ c.terms[session]? = some ⟨config, factory, clock⟩ ∧
      c.world.session? = none ∧ c.world.answer = none := by
  obtain ⟨_, hd, t, ht, ho, hs, _, ha⟩ :=
    Footing.starting_of_orders h.agrees (footing_orders hq rfl)
  rw [footing_orders hq rfl] at ho
  injection ho with htask
  cases htask
  exact ⟨hd, ht, hs, ha⟩

/-- A thread that has ended draws for no session. -/
theorem session?_of_gone {w : World σ} (hl : w.listening = false) : w.session? = none := by
  cases ht : w.thread <;> simp_all [World.listening, World.session?, World.active?]

/-- No start waits for the thread when none is in the queue. -/
theorem answered_of_no_start (h : Sound c) {n : Nat} (hd : c.duty = .starting n)
    (hq : c.world.queue.any Task.isStart = false) : c.footing.Answered n := by
  rcases (Footing.agrees_starting h.agrees hd).2.2.2 with hask | hans
  · obtain ⟨t, _, ho, _⟩ := hask
    have hmem : Task.start n t.config t.factory t.clock ∈ c.world.orders := by
      change _ ∈ c.footing.orders
      rw [ho]
      exact List.mem_singleton.mpr rfl
    have hmem := (List.mem_filter.mp hmem).1
    rw [List.any_eq_false] at hq
    exact absurd rfl (hq _ hmem)
  · exact hans

/-- The owner has asked for a session. -/
theorem sound_ask (h : Sound c) (hr : c.world.running = none) (config : Config Float32)
    (terms : Terms σ) {queue : List (Task σ)} {duty : Duty} {story : List Happening}
    (hq : queue.filterMap Task.role? = c.world.queue.filterMap Task.role?)
    (hg : c.world.listening = false → queue = [])
    (ha : ({ c with
      world :=
        { c.world with inboxes := c.world.inboxes ++ [.ofConfig config], answer := none, queue }
      duty, terms := c.terms ++ [terms], story } : Course σ).footing.Agrees) :
    Sound
      { c with
        world :=
          { c.world with inboxes := c.world.inboxes ++ [.ofConfig config], answer := none, queue }
        duty, terms := c.terms ++ [terms], story } where
  agrees := ha
  terms_length := by
    simp [h.terms_length]
  endpoint_lt := by
    intro n hn
    have hlt := h.endpoint_lt n hn
    simp only [List.length_append, List.length_singleton]
    omega
  session_lt := by
    intro n hn
    have hlt := h.session_lt n hn
    simp only [List.length_append, List.length_singleton]
    omega
  errand_endpoint := h.errand_endpoint
  told_endpoint := h.told_endpoint
  told_queue := hq.trans h.told_queue
  gone_queue := hg
  stopping := by
    intro n hn hne
    have hold := h.stopping n hn (by rw [hr]; exact fun hnone => by cases hnone)
    unfold World.isStopping World.inbox? at hold ⊢
    rw [List.getElem?_append_left (h.endpoint_lt n hn)]
    exact hold

/-- The owner has raised the flag of the running session. -/
theorem sound_raise (h : Sound c) (hd : c.duty = .free) {n : Nat}
    (hr : c.world.running = some n) (leaving : Bool) :
    Sound
      { c with
        world := { c.world.modifyInbox n .requestStop with running := none }
        duty := .raised n leaving } where
  agrees := by
    obtain ⟨ho, hn⟩ : c.footing.orders = [] ∧ n ∈ c.endpoints ∧ c.footing.Serves n := by
      have hagree := h.agrees
      simpa only [Footing.Agrees, footing, hd, hr] using hagree
    exact ⟨rfl, ho, hn.1, hn.2⟩
  terms_length := by
    simpa using h.terms_length
  endpoint_lt := by
    simpa using h.endpoint_lt
  session_lt := by
    intro m hm
    simpa using h.session_lt m hm
  errand_endpoint := h.errand_endpoint
  told_endpoint := h.told_endpoint
  told_queue := h.told_queue
  gone_queue := h.gone_queue
  stopping := by
    intro m hm _
    have hraised := World.isStopping_requestStop (w := c.world) n m
    refine Eq.trans hraised ?_
    by_cases hnm : n = m
    · have hlt := h.endpoint_lt m hm
      have hsome : (c.world.inbox? m).isSome = true := by
        simp [World.inbox?, hlt]
      simp [hnm, hsome]
    · have hne : c.world.running ≠ some m := by
        rw [hr]
        exact fun heq => hnm (Option.some.inj heq)
      rw [h.stopping m hm hne]
      rfl

/-- The start of a session has succeeded, and its endpoints are handed out. -/
theorem sound_open (h : Sound c) {n : Nat} (hd : c.duty = .starting n)
    (hq : c.world.queue.any Task.isStart = false) (ha : c.world.answer = some (.ok ()))
    (story : List Happening) :
    Sound
      { c with
        world := { c.world with running := some n }
        duty := .free
        endpoints := c.endpoints ++ [n]
        story } where
  agrees := by
    obtain ⟨ho, hok, _⟩ := answered_of_no_start h hd hq
    exact ⟨ho, List.mem_append_right _ (List.mem_singleton.mpr rfl), hok ha⟩
  terms_length := h.terms_length
  endpoint_lt := by
    intro m hm
    rcases List.mem_append.mp hm with hold | hnew
    · exact h.endpoint_lt m hold
    · have hlen := (Footing.agrees_starting h.agrees hd).2.1
      change n + 1 = c.world.inboxes.length at hlen
      rw [List.mem_singleton.mp hnew]
      change n < c.world.inboxes.length
      omega
  session_lt := h.session_lt
  errand_endpoint := fun e he => List.mem_append_left _ (h.errand_endpoint e he)
  told_endpoint := fun t ht => List.mem_append_left _ (h.told_endpoint t ht)
  told_queue := h.told_queue
  gone_queue := h.gone_queue
  stopping := by
    intro m hm hne
    have hrun := (Footing.agrees_starting h.agrees hd).1
    change c.world.running = none at hrun
    rcases List.mem_append.mp hm with hold | hnew
    · refine h.stopping m hold ?_
      rw [hrun]
      exact fun hnone => by cases hnone
    · exact absurd (congrArg some (List.mem_singleton.mp hnew).symm) hne

/-- Without orders and without a session, the owner is free to do anything. -/
theorem agrees_free {world : World σ} {story : List Happening} (hr : world.running = none)
    (ho : world.orders = []) (hs : world.session? = none) :
    ({ c with world, duty := .free, story } : Course σ).footing.Agrees := by
  simp only [Footing.Agrees, footing, hr]
  exact ⟨ho, hs⟩

theorem agrees_start (h : Sound c) (hd : c.duty = .free) (hr : c.world.running = none)
    (hl : c.world.listening = true) (t : Terms σ) :
    ({ c with
      world :=
        { c.world with
          inboxes := c.world.inboxes ++ [.ofConfig t.config]
          answer := none
          queue :=
            c.world.queue ++ [.start c.world.inboxes.length t.config t.factory t.clock] }
      duty := .starting c.world.inboxes.length
      terms := c.terms ++ [t] } : Course σ).footing.Agrees := by
  have hagree := h.agrees
  simp only [Footing.Agrees, footing, hd, hr] at hagree
  obtain ⟨ho, hs⟩ := hagree
  refine ⟨hr, by simp [footing], fun hn => ?_, .inl ⟨t, ?_, ?_, hs, hl, rfl⟩⟩
  · exact absurd (h.endpoint_lt _ hn) (Nat.lt_irrefl _)
  · simp [footing, ← h.terms_length]
  · simp only [footing, World.orders, List.filter_append]
    exact congrArg (· ++ [_]) ho

theorem agrees_askStop (h : Sound c) {n : Nat} {leaving : Bool} (hd : c.duty = .raised n leaving) :
    ({ c with world := c.world.post .stop, duty := .stopping n leaving } : Course σ).footing.Agrees := by
  have hagree := h.agrees
  simp only [Footing.Agrees, footing, hd] at hagree
  obtain ⟨hr, ho, hn, hs⟩ := hagree
  cases hl : c.world.listening with
  | true =>
    rw [World.post_of_listening hl]
    have hs : c.world.session? = some n := by simpa [Footing.Serves, hl] using hs
    refine ⟨hr, hn, .inl ⟨?_, hs⟩⟩
    change List.filter _ _ = _
    rw [List.filter_append]
    exact congrArg (· ++ [Task.stop]) ho
  | false =>
    rw [World.post_of_gone hl]
    exact ⟨hr, hn, .inr ⟨ho, session?_of_gone hl⟩⟩

/-- The thread has given up the session that the owner stops when no stop is in the queue. -/
theorem released_of_no_stop (h : Sound c) {n : Nat} {leaving : Bool}
    (hd : c.duty = .stopping n leaving) (hq : c.world.queue.any Task.isStop = false) :
    c.world.running = none ∧ c.world.orders = [] ∧ c.world.session? = none := by
  have hagree := h.agrees
  simp only [Footing.Agrees, footing, hd] at hagree
  obtain ⟨hr, _, ⟨ho, _⟩ | ⟨ho, hs⟩⟩ := hagree
  · have hmem : Task.stop ∈ c.world.orders := by
      rw [ho]
      exact List.mem_singleton.mpr rfl
    have hmem := (List.mem_filter.mp hmem).1
    rw [List.any_eq_false] at hq
    exact absurd rfl (hq _ hmem)
  · exact ⟨hr, ho, hs⟩

/-- The owner leaves a course sound. -/
theorem sound_manages {c' : Course σ} (h : Sound c) (hm : Manages c c') : Sound c' := by
  have hagree := h.agrees
  cases hm with
  | refuseStart => exact sound_order h rfl rfl rfl rfl h.gone_queue hagree
  | startUnheard hd hr hv hl =>
    refine sound_ask h hr _ _ rfl h.gone_queue ?_
    simp only [Footing.Agrees, footing, hd, hr] at hagree ⊢
    exact hagree
  | start hd hr hv hl =>
    refine sound_ask h hr _ _ ?_ ?_ ?_
    · simp [List.filterMap_append, Task.role?]
    · intro hgone
      exact absurd (hl.symm.trans hgone) (by decide)
    · exact agrees_start h hd hr hl _
  | raise hd hr => exact sound_raise h hd hr _
  | leave hd hr =>
    refine sound_order h rfl rfl rfl rfl h.gone_queue ?_
    simp only [Footing.Agrees, footing, hd, hr] at hagree
    exact ⟨hr, hagree⟩
  | loseStart hd hq ha =>
    obtain ⟨ho, _, hnone⟩ := answered_of_no_start h hd hq
    refine sound_order h rfl rfl rfl rfl h.gone_queue ?_
    exact agrees_free (Footing.agrees_starting hagree hd).1 ho (hnone (by simp [footing, ha]))
  | failStart hd hq ha =>
    obtain ⟨ho, _, hnone⟩ := answered_of_no_start h hd hq
    refine sound_order h rfl rfl rfl rfl h.gone_queue ?_
    exact agrees_free (Footing.agrees_starting hagree hd).1 ho (hnone (by simp [footing, ha]))
  | grant hd hq ha => exact sound_open h hd hq ha _
  | askStop hd => exact sound_post h rfl (agrees_askStop h hd)
  | close hd hq =>
    obtain ⟨hr, ho, hs⟩ := released_of_no_stop h hd hq
    refine sound_order h rfl rfl rfl rfl h.gone_queue ?_
    split
    · exact ⟨hr, ho, hs⟩
    · exact agrees_free hr ho hs
  | askEnd hd =>
    simp only [Footing.Agrees, footing, hd] at hagree
    obtain ⟨hr, ho, hs⟩ := hagree
    refine sound_post h rfl ?_
    cases hl : c.world.listening with
    | true =>
      rw [World.post_of_listening hl]
      refine ⟨hr, hs, .inl ?_⟩
      change List.filter _ _ = _
      rw [List.filter_append]
      exact congrArg (· ++ [Task.shutdown]) ho
    | false =>
      rw [World.post_of_gone hl]
      exact ⟨hr, hs, .inr ho⟩
  | depart hd hl =>
    simp only [Footing.Agrees, footing, hd] at hagree
    refine sound_order h rfl rfl rfl rfl h.gone_queue ⟨hagree.1, hagree.2.1, ?_⟩
    change List.filter _ c.world.queue = []
    rw [h.gone_queue hl]
    rfl

/-- Every step leaves a course sound. -/
theorem sound_moves {c' : Course σ} (h : Sound c) (hm : Moves b c c') : Sound c' := by
  cases hm with
  | turnAway hn | approach hn =>
    exact
      { h with
        errand_endpoint := fun e he => by
          rcases List.mem_append.mp he with hold | hnew
          · exact h.errand_endpoint e hold
          · rw [List.mem_singleton.mp hnew]
            exact hn }
  | accept he | confirm he | overtake he | unheard he => exact sound_onward_same h he _
  | refuse he | park he | replace he | withdraw he =>
    apply sound_onward h _ he
    intro i
    rfl
  | tell he _ hl => exact sound_tell h he hl _
  | work hw => exact sound_work h hw _
  | owner hm => exact sound_manages h hm

/-- Every course is sound. -/
theorem sound_run (b : Backend σ) (acts : List (Act σ)) : Sound (run b acts) :=
  run_induction b acts sound_new fun _ _ => sound_moves

/-- What holds of a course, and after every step of a sound course from where it holds, holds
whatever else is done. -/
theorem later_run {P : Course σ → Prop} (b : Backend σ) (acts more : List (Act σ))
    (h : P (run b acts)) (hmoves : ∀ c c', Sound c → P c → Moves b c c' → P c') :
    P (run b (acts ++ more)) := by
  induction more using List.reverseRecOn with
  | nil => rwa [List.append_nil]
  | append_singleton more act ih =>
    rw [← List.append_assoc, run_append]
    rcases step_moves b (run b (acts ++ more)) act with hsame | hm
    · rw [hsame]
      exact ih
    · exact hmoves _ _ (sound_run b _) ih hm

/-- What holds at the beginning, and after every step of a sound course from where it holds,
holds of every course. -/
theorem sound_run_induction {P : Course σ → Prop} (b : Backend σ) (acts : List (Act σ))
    (hnew : P (new σ)) (hmoves : ∀ c c', Sound c → P c → Moves b c c' → P c') : P (run b acts) :=
  later_run b [] acts hnew hmoves

end Course

end PictureInPicture
