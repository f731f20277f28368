-- Sessions and their ends. After the stop of a session has returned nothing more is done for
-- it, and its backend was given up once. What a backend is handed was put into a slot of its
-- own session, whoever told the thread to look.
import PictureInPicture.Proofs.Session.Orderly

namespace PictureInPicture

variable {σ : Type} {b : Backend σ}

namespace Footing

variable {f f' : Footing σ} {n : Nat}

/-! ## The backend of a session -/

/-- The backend of the session was made. -/
def Made (f : Footing σ) (n : Nat) : Prop :=
  n ∈ f.endpoints ∨ f.duty = .starting n ∧ f.answer = some (.ok ())

/-- The backend of a session that was made was given up once if the thread does not draw for it
any more, and otherwise not yet. -/
def Settled (f : Footing σ) (n drops : Nat) : Prop :=
  f.Made n ∧ f.session? ≠ some n ∧ drops = 1 ∨ (f.Made n → f.session? = some n) ∧ drops = 0

/-- A session that the thread draws for was made. -/
theorem made_of_session (h : f.Agrees) (hs : f.session? = some n) : f.Made n := by
  have hagree := h
  unfold Made
  cases hd : f.duty with
  | free =>
    simp only [Agrees, hd] at hagree
    cases hr : f.running with
    | none => simp [hr, hs] at hagree
    | some m =>
      simp only [hr, Serves, hs] at hagree
      obtain ⟨_, hm, heq | ⟨hnone, _⟩⟩ := hagree
      · cases heq
        exact .inl hm
      · cases hnone
  | starting m =>
    obtain ⟨_, _, _, hask | hans⟩ := agrees_starting h hd
    · obtain ⟨_, _, _, hnone, _⟩ := hask
      exact absurd (hs.symm.trans hnone) (Option.some_ne_none _)
    · by_cases hok : f.answer = some (.ok ())
      · rcases hans.2.1 hok with heq | ⟨hnone, _⟩
        · have hnm : n = m := Option.some.inj (hs.symm.trans heq)
          exact .inr ⟨by rw [hnm], hok⟩
        · exact absurd (hs.symm.trans hnone) (Option.some_ne_none _)
      · exact absurd (hs.symm.trans (hans.2.2 hok)) (Option.some_ne_none _)
  | raised m leaving =>
    simp only [Agrees, hd, Serves, hs] at hagree
    obtain ⟨_, _, hm, heq | ⟨hnone, _⟩⟩ := hagree
    · cases heq
      exact .inl hm
    · cases hnone
  | stopping m leaving =>
    simp only [Agrees, hd, hs] at hagree
    obtain ⟨_, hm, ⟨_, heq⟩ | ⟨_, hnone⟩⟩ := hagree
    · cases heq
      exact .inl hm
    · cases hnone
  | leaving | joining | left =>
    simp [Agrees, hd, hs] at hagree

/-- A session that the thread loses is settled by the end of its backend. -/
theorem settled_of_release (h : f.Agrees) (hm : f'.Made n ↔ f.Made n)
    (hs' : f'.session? = none) {drops : Nat} (hn : f.Settled n drops) :
    f'.Settled n (drops + if f.session? = some n then 1 else 0) := by
  rcases hn with ⟨hmade, hs, hd⟩ | ⟨hmade, hd⟩
  · left
    rw [if_neg hs, hs']
    exact ⟨hm.mpr hmade, nofun, hd⟩
  · split
    · rename_i hs
      left
      rw [hs', hd]
      exact ⟨hm.mpr (made_of_session h hs), nofun, rfl⟩
    · rename_i hs
      exact .inr ⟨fun hm' => absurd (hmade (hm.mp hm')) hs, hd⟩

/-- The thread settles a session when it loses it. -/
theorem settled_turns (h : f.Agrees) (ht : Turns f f') {drops : Nat} (hn : f.Settled n drops) :
    f'.Settled n (drops + if f.session? = some n ∧ f'.session? = none then 1 else 0) := by
  cases ht with
  | same =>
    have hne : ¬(f.session? = some n ∧ f.session? = none) := by
      rintro ⟨hsome, hnone⟩
      exact absurd (hsome.symm.trans hnone) (Option.some_ne_none _)
    rw [if_neg hne]
    exact hn
  | @serve session _ _ _ _ _ ho =>
    obtain ⟨_, hd, _, _, _, hs, _, ha⟩ := starting_of_orders h ho
    have hnew := (agrees_starting h hd).2.2.1
    rw [if_neg (fun hc => by cases hc.2)]
    rcases hn with ⟨hmade, _, hdrops⟩ | ⟨hmade, hdrops⟩
    · have hold : n ∈ f.endpoints := by simpa [Made, ha] using hmade
      refine .inl ⟨.inl hold, fun heq => ?_, hdrops⟩
      cases heq
      exact hnew hold
    · refine .inr ⟨fun hmade' => ?_, hdrops⟩
      rcases hmade' with hold | ⟨hd', _⟩
      · exact absurd (hs.symm.trans (hmade (.inl hold))) (Option.some_ne_none _).symm
      · rw [hd] at hd'
        cases hd'
        rfl
  | decline fault ho =>
    obtain ⟨_, hd, _, _, _, hs, _, ha⟩ := starting_of_orders h ho
    rw [if_neg (fun hc => absurd (hs.symm.trans hc.1) (Option.some_ne_none _).symm)]
    simpa [Settled, Made, ha] using hn
  | collapse ho | release ho | crash ho | shutdown ho =>
    simp only [and_true]
    refine settled_of_release h ?_ ?_ hn
    · exact Iff.rfl
    · rfl

end Footing

namespace Course

variable {c c' : Course σ}

/-! ## The end of a session -/

/-- The session had its time: its endpoints were handed out, and the thread does not draw for
it. -/
def Ended (c : Course σ) (n : Nat) : Prop := n ∈ c.endpoints ∧ c.world.session? ≠ some n

theorem endpoints_moves (hm : Moves b c c') {n : Nat} (hn : n ∈ c.endpoints) :
    n ∈ c'.endpoints := by
  cases hm with
  | owner hm => exact (spares_manages hm).endpoints n hn
  | _ => exact hn

/-- The thread turns to another session only for the one that the owner waits for. -/
theorem session?_moves (h : Sound c) (hm : Moves b c c') {n : Nat}
    (hn : c'.world.session? = some n) : c.world.session? = some n ∨ c.duty = .starting n := by
  obtain ⟨new, _, htell⟩ := moves_tells hm
  cases htell with
  | work hw => exact Footing.session?_turns h.agrees (works_turns hw [] []) hn
  | close _ _ hw => exact .inl (by rwa [hw] at hn)
  | aside _ hs => exact .inl (by rwa [hs] at hn)

theorem ended_moves (h : Sound c) (hm : Moves b c c') {n : Nat} (hn : c.Ended n) : c'.Ended n := by
  refine ⟨endpoints_moves hm hn.1, fun hs => ?_⟩
  rcases session?_moves h hm hs with hold | hnew
  · exact hn.2 hold
  · exact (Footing.agrees_starting h.agrees hnew).2.2.1 hn.1

/-- The thread does nothing for a session that had its time. -/
theorem focus_of_ended (h : Sound c) {n : Nat} (hn : c.Ended n) : c.world.focus ≠ some n := by
  intro hf
  unfold World.focus at hf
  split at hf
  · rename_i session config factory clock queue ht hq
    cases hf
    exact (Footing.agrees_starting h.agrees (asked_of_start h hq).1).2.2.1 hn.1
  · exact hn.2 hf

/-! ## The backend is given up once -/

theorem focus_of_session {w : World σ} {n : Nat} (hs : w.session? = some n) :
    w.focus = some n := by
  unfold World.focus
  split
  · rename_i ht hq
    simp [World.session?, World.active?, ht] at hs
  · exact hs

theorem drops_work (h : Sound c) {world : World σ} {events : List Event}
    (hw : World.Works b c.world world events) (n : Nat) :
    drops n (c.story ++ events.map (.worked c.world.focus)) =
      drops n c.story + if c.world.session? = some n ∧ world.session? = none then 1 else 0 := by
  have hstart : ∀ session config factory clock queue,
      c.world.queue = .start session config factory clock :: queue → c.world.session? = none := by
    intro session config factory clock queue hq
    exact (asked_of_start h hq).2.2.1
  rw [drops_append]
  congr 1
  unfold drops
  rw [workFor_worked]
  by_cases hs : c.world.session? = some n
  · rw [if_pos (focus_of_session hs), World.drops_works hw hstart]
    simp [hs]
  · simp only [hs, false_and, if_false]
    split
    · rename_i hf
      have hnone : c.world.session? = none := by
        unfold World.focus at hf
        split at hf
        · rename_i ht hq
          simp [World.session?, World.active?, ht]
        · exact absurd hf hs
      rw [World.drops_works hw hstart]
      simp [hnone]
    · rfl

/-- The owner makes no backend. -/
theorem made_manages (hm : Manages c c') (n : Nat) : c'.footing.Made n ↔ c.footing.Made n := by
  cases hm with
  | refuseStart => exact Iff.rfl
  | startUnheard hd | start hd | raise hd | leave hd | askStop hd | askEnd hd | depart hd =>
    simp [Footing.Made, footing, hd]
  | loseStart hd _ ha | failStart hd _ ha => simp [Footing.Made, footing, hd, ha]
  | grant hd _ ha => simp [Footing.Made, footing, hd, ha, eq_comm]
  | @close _ leaving hd => cases leaving <;> simp [Footing.Made, footing, hd]

theorem settled_moves (h : Sound c) (hm : Moves b c c') {n : Nat}
    (hn : c.footing.Settled n (drops n c.story)) : c'.footing.Settled n (drops n c'.story) := by
  have keep : ∀ {new : List Happening}, c'.story = c.story ++ new → workFor n new = [] →
      (c'.footing.Made n ↔ c.footing.Made n) → c'.world.session? = c.world.session? →
      c'.footing.Settled n (drops n c'.story) := by
    intro new hstory hnew hmade hs
    have hdrops : drops n c'.story = drops n c.story := by
      unfold drops
      rw [hstory, workFor_append, hnew, List.append_nil]
    rw [hdrops]
    unfold Footing.Settled at hn ⊢
    rw [hmade]
    change _ ∧ c'.world.session? ≠ some n ∧ _ ∨ (_ → c'.world.session? = some n) ∧ _
    rw [hs]
    exact hn
  cases hm with
  | accept | refuse | park | confirm | overtake | replace | tell | unheard | withdraw =>
    exact keep rfl (workFor_asides (asides_tale _ _)) Iff.rfl rfl
  | work hw =>
    have hturn := Footing.settled_turns h.agrees (works_turns hw [] []) hn
    rw [drops_work h hw]
    exact hturn
  | turnAway => exact keep rfl rfl Iff.rfl rfl
  | approach => exact keep (List.append_nil _).symm rfl Iff.rfl rfl
  | owner hm =>
    obtain ⟨new, hstory, hnew⟩ := (spares_manages hm).story
    exact keep hstory (workFor_orders hnew) (made_manages hm n)
      (World.session?_of_thread (spares_manages hm).thread)

theorem settled_new (n : Nat) : (new σ).footing.Settled n 0 := by
  refine .inr ⟨fun hmade => ?_, rfl⟩
  simp [Footing.Made, footing, new] at hmade

theorem stopping_endpoint (h : Sound c) {n : Nat} {leaving : Bool}
    (hd : c.duty = .stopping n leaving) : n ∈ c.endpoints := by
  have hagree := h.agrees
  simp only [Footing.Agrees, footing, hd] at hagree
  exact hagree.2.1

/-- A session whose stop waits for the thread takes no frames. -/
theorem stopping_of_order (h : Sound c) {active : Active σ} {queue : List (Task σ)}
    (ht : c.world.thread = .idle (some active)) (hq : c.world.queue = .stop :: queue) :
    c.world.isStopping active.session = true := by
  have hs : c.world.session? = some active.session := by simp [World.session?, World.active?, ht]
  have ho : c.footing.orders = _ := footing_orders hq rfl
  obtain ⟨n, leaving, hd, hn⟩ := Footing.stopping_of_orders h.agrees ho
  obtain rfl : active.session = n := Option.some.inj (hs.symm.trans hn)
  have hr : c.world.running = none :=
    Footing.running_of_orders h.agrees (by rw [ho]; exact List.cons_ne_nil _ _)
  refine h.stopping _ (stopping_endpoint h hd) ?_
  rw [hr]
  exact (Option.some_ne_none _).symm

/-- The end of a stop, with what came before it and after it. -/
def Rests (c : Course σ) : Prop :=
  ∀ n pre post, c.story = pre ++ .stopped n :: post →
    c.Ended n ∧ drops n pre = 1 ∧ workFor n post = []

theorem rests_moves (h : Sound c) (hm : Moves b c c')
    (hs : ∀ n, c.footing.Settled n (drops n c.story)) (hr : Rests c) : Rests c' := by
  intro n pre post hsplit
  obtain ⟨new, hstory, htell⟩ := moves_tells hm
  rw [hstory] at hsplit
  rcases split_append hsplit with ⟨post', hold, rfl⟩ | ⟨pre', rfl, hnew⟩
  · obtain ⟨hend, hdrops, hpost⟩ := hr n pre post' hold
    refine ⟨ended_moves h hm hend, hdrops, ?_⟩
    rw [workFor_append, hpost, List.nil_append]
    cases htell with
    | work hw => rw [workFor_worked, if_neg (focus_of_ended h hend)]
    | close => rfl
    | aside hnew => exact workFor_asides hnew
  · have hmem : Happening.stopped n ∈ new := by
      rw [hnew]
      exact List.mem_append_right _ List.mem_cons_self
    cases htell with
    | work hw =>
      obtain ⟨event, _, heq⟩ := List.mem_map.mp hmem
      cases heq
    | aside haside => exact absurd (haside _ hmem) (by simp [Happening.isAside])
    | @close m leaving hd hq hw =>
      obtain ⟨rfl, heq⟩ : pre' = [] ∧ Happening.stopped n :: post = [.stopped m] := by
        simpa [List.append_eq_singleton_iff] using hnew.symm
      cases heq
      obtain ⟨_, _, hnone⟩ := released_of_no_stop h hd hq
      have hmem : n ∈ c.endpoints := stopping_endpoint h hd
      have hend : c.Ended n := ⟨hmem, by rw [hnone]; nofun⟩
      refine ⟨ended_moves h hm hend, ?_, rfl⟩
      rw [List.append_nil]
      rcases hs n with ⟨_, _, hone⟩ | ⟨hmade, _⟩
      · exact hone
      · exact absurd (hmade (.inl hmem)) hend.2

/-- After the stop of a session has returned nothing happens in its backend, which was given up
once. -/
theorem rests_run (b : Backend σ) (acts : List (Act σ)) : Rests (run b acts) := by
  have hall := sound_run_induction
    (P := fun c => (∀ n, c.footing.Settled n (drops n c.story)) ∧ Rests c) b acts ?_ ?_
  · exact hall.2
  · refine ⟨settled_new, fun n pre post hsplit => ?_⟩
    simp [new] at hsplit
  · rintro c c' h ⟨hs, hr⟩ hm
    exact ⟨fun n => settled_moves h hm (hs n), rests_moves h hm hs hr⟩

end Course

/-! ## Where frames come from -/

/-- What is in a slot of a session after another happening. -/
def Happening.fill (n : Nat) (role : Role) (slot : Option Frame) : Happening → Option Frame
  | parked m r frame => if m = n ∧ r = role then some frame else slot
  | worked session (.call (.upload r _)) => if session = some n ∧ r = role then none else slot
  | _ => slot

/-- A submission puts its frame into a slot, or an upload begins. -/
def Happening.fills : Happening → Bool
  | parked .. => true
  | worked _ (.call (.upload ..)) => true
  | _ => false

/-- The frame that waits in a slot of a session, as the story has it: the last one that a
submission to this session has put there, unless its upload has begun. -/
def waiting (n : Nat) (role : Role) (story : List Happening) : Option Frame :=
  story.foldl (Happening.fill n role) none

theorem waiting_append_of_still {n : Nat} {role : Role} {story new : List Happening}
    (h : ∀ x ∈ new, x.fills = false) : waiting n role (story ++ new) = waiting n role story := by
  unfold waiting
  rw [List.foldl_append]
  generalize story.foldl (Happening.fill n role) none = slot
  induction new with
  | nil => rfl
  | cons x new ih =>
    have hx : Happening.fill n role slot x = slot := by
      have hx := h x List.mem_cons_self
      unfold Happening.fills at hx
      unfold Happening.fill
      split at hx <;> simp_all
    rw [List.foldl_cons, hx]
    exact ih fun y hy => h y (List.mem_cons_of_mem _ hy)

theorem waiting_parked (n m : Nat) (role r : Role) (frame : Frame) (story : List Happening) :
    waiting n role (story ++ [.parked m r frame]) =
      if m = n ∧ r = role then some frame else waiting n role story := by
  unfold waiting
  rw [List.foldl_append]
  rfl

theorem waiting_upload (n : Nat) (session : Option Nat) (role r : Role) (frame : Frame)
    (story : List Happening) :
    waiting n role (story ++ [.worked session (.call (.upload r frame))]) =
      if session = some n ∧ r = role then none else waiting n role story := by
  unfold waiting
  rw [List.foldl_append]
  rfl

/-- A frame that waits was put there by a submission to the session. -/
theorem parked_of_waiting {n : Nat} {role : Role} {frame : Frame} {story : List Happening}
    (h : waiting n role story = some frame) : .parked n role frame ∈ story := by
  induction story using List.reverseRecOn with
  | nil => cases h
  | append_singleton story x ih =>
    unfold waiting at h ih
    rw [List.foldl_append, List.foldl_cons, List.foldl_nil] at h
    unfold Happening.fill at h
    split at h
    · split at h
      · rename_i hm
        obtain ⟨rfl, rfl⟩ := hm
        cases h
        exact List.mem_append_right _ (List.mem_singleton.mpr rfl)
      · exact List.mem_append_left _ (ih h)
    · split at h
      · cases h
      · exact List.mem_append_left _ (ih h)
    · exact List.mem_append_left _ (ih h)

namespace World

variable {w w' : World σ} {events : List Event}

/-- What fills no slot of an inbox fills none of a world. -/
theorem slot?_modifyInbox_of {f : Inbox → Inbox} {n m : Nat} {r : Role} {frame : Frame}
    (hf : ∀ i, w.inbox? n = some i → (f i).slot r = some frame → i.slot r = some frame)
    (hs : (w.modifyInbox n f).slot? m r = some frame) : w.slot? m r = some frame := by
  rw [slot?_modifyInbox] at hs
  split at hs
  · rename_i hnm
    subst hnm
    cases hi : w.inbox? n with
    | none => simp [hi] at hs
    | some i =>
      rw [hi] at hs
      rw [slot?_eq hi]
      exact hf i hi hs
  · exact hs

/-- The thread never puts a frame into a slot. -/
theorem slot?_works (h : Works b w w' events) {n : Nat} {r : Role} {frame : Frame}
    (hs : w'.slot? n r = some frame) : w.slot? n r = some frame := by
  cases h with
  | rest | serve | decline | collapse | ignore | heed | halt | shutdown | miss | lose => exact hs
  | discard | release | report =>
    refine slot?_modifyInbox_of (fun i _ hi => ?_) hs
    rw [Inbox.slot_clearSlots] at hi
    cases hi
  | reach =>
    refine slot?_modifyInbox_of (fun i _ hi => ?_) hs
    rw [Inbox.slot_withdraw] at hi
    split at hi
    · cases hi
    · exact hi
  | @finish active role frame inbox _ _ hin | @fail active role frame inbox _ _ hin
  | @crash active role frame inbox _ _ hin =>
    refine slot?_modifyInbox_of (fun i hi hslot => ?_) hs
    rw [hin] at hi
    cases hi
    have hkeep := Loop.processes_sameSlots (Loop.process_processes b active.loop inbox role frame)
    rw [← hkeep.slot]
    exact hslot

/-- The thread begins the upload of the frame that it finds in a slot, and of no other one. -/
theorem uploads_works (h : Works b w w' events) :
    (∃ active role frame, w.thread = .reaching active role ∧
      w.slot? active.session role = some frame ∧
      w'.slot? active.session role = none ∧ events = [.call (.upload role frame)]) ∨
      ∀ role frame, .call (.upload role frame) ∉ events := by
  have turned : ∀ (l : Loop σ) (i : Inbox) (r : Role) (f : Frame) (role : Role) (frame : Frame),
      .call (.upload role frame) ∉ (l.process b i r f).events := by
    intro l i r f role frame hmem
    have hmile := List.mem_filter.mpr ⟨hmem, (rfl : Event.isMilestone _ = true)⟩
    rw [Loop.processes_milestones (Loop.process_processes b l i r f)] at hmile
    cases List.mem_singleton.mp hmile
  cases h with
  | @reach active role frame ht hs =>
    refine .inl ⟨active, role, frame, ht, hs, ?_, rfl⟩
    have hslot : (w.modifyInbox active.session (·.withdraw role)).slot? active.session role =
        none := by
      rw [slot?_modifyInbox, if_pos rfl]
      cases w.inbox? active.session <;> simp [Inbox.slot_withdraw]
    exact hslot
  | rest | discard | heed | ignore | halt | miss | lose | report =>
    exact .inr fun _ _ hmem => by cases hmem
  | serve | decline | collapse => exact .inr fun _ _ hmem => by simp at hmem
  | release => exact .inr fun _ _ hmem => by simp [Event.notice] at hmem
  | @shutdown active =>
    refine .inr fun _ _ hmem => ?_
    cases active <;> simp [Event.notice] at hmem
  | finish => exact .inr fun role frame hmem => turned _ _ _ _ role frame hmem
  | fail | crash =>
    refine .inr fun role frame hmem => ?_
    rcases List.mem_append.mp hmem with hturn | hlast
    · exact turned _ _ _ _ role frame hturn
    · cases List.mem_singleton.mp hlast

end World

namespace Course

variable {c c' : Course σ}

/-! ### Slots and their story -/

/-- What is in a slot is what the story says, and came with a submission. -/
structure Sourced (c : Course σ) : Prop where
  slot : ∀ n r frame, c.world.slot? n r = some frame → waiting n r c.story = some frame
  parked : ∀ n r frame, .parked n r frame ∈ c.story →
    ∃ e ∈ c.errands, e.session = n ∧ e.role = r ∧ e.frame = frame

/-- The upload of a frame that waits. -/
def Traced (c : Course σ) : Prop :=
  ∀ n role frame pre post, c.story = pre ++ .worked (some n) (.call (.upload role frame)) :: post →
    waiting n role pre = some frame ∧
      ∃ e ∈ c.errands, e.session = n ∧ e.role = role ∧ e.frame = frame

/-- A submission is never forgotten. -/
theorem errand_moves (hm : Moves b c c') {e : Errand} (he : e ∈ c.errands) :
    ∃ e' ∈ c'.errands, e'.session = e.session ∧ e'.role = e.role ∧ e'.frame = e.frame := by
  have onward : ∀ {k : Nat} {e₁ : Errand} (stage : Errand.Stage), c.errands[k]? = some e₁ →
      ∃ e' ∈ c.errands.set k { e₁ with stage },
        e'.session = e.session ∧ e'.role = e.role ∧ e'.frame = e.frame := by
    intro k e₁ stage hk
    obtain ⟨j, hj⟩ := List.mem_iff_getElem?.mp he
    by_cases hjk : k = j
    · subst hjk
      have heq : e₁ = e := Option.some.inj (hk.symm.trans hj)
      obtain ⟨hlt, _⟩ := List.getElem?_eq_some_iff.mp hk
      exact ⟨{ e₁ with stage }, List.mem_set hlt _, by rw [heq], by rw [heq], by rw [heq]⟩
    · refine ⟨e, List.mem_iff_getElem?.mpr ⟨j, ?_⟩, rfl, rfl, rfl⟩
      rw [List.getElem?_set_ne hjk]
      exact hj
  cases hm with
  | accept hk | refuse hk | park hk | confirm hk | overtake hk | replace hk | tell hk
  | unheard hk | withdraw hk => exact onward _ hk
  | turnAway | approach => exact ⟨e, List.mem_append_left _ he, rfl, rfl, rfl⟩
  | work => exact ⟨e, he, rfl, rfl, rfl⟩
  | owner hm =>
    rw [(spares_manages hm).errands]
    exact ⟨e, he, rfl, rfl, rfl⟩

theorem still_tale {e : Errand} {stage : Errand.Stage} (hs : e.stage ≠ .parking) :
    ∀ x ∈ e.tale stage, x.fills = false := by
  intro x hx
  unfold Errand.tale at hx
  split at hx
  · cases hx
  · rename_i hp
    exact absurd hp hs
  · rw [List.mem_singleton.mp hx]
    rfl
  · cases hx

/-- What fills no slot and is told of as such leaves slots and story in step. -/
theorem sourced_still (hm : Moves b c c') (hc : Sourced c) {new : List Happening}
    (hstory : c'.story = c.story ++ new) (hnew : ∀ x ∈ new, x.fills = false)
    (hslot : ∀ n r frame, c'.world.slot? n r = some frame → c.world.slot? n r = some frame) :
    Sourced c' := by
  refine ⟨fun n r frame hs => ?_, fun n r frame hp => ?_⟩
  · rw [hstory, waiting_append_of_still hnew]
    exact hc.slot n r frame (hslot n r frame hs)
  · rw [hstory] at hp
    rcases List.mem_append.mp hp with hold | hlate
    · obtain ⟨e, he, hn, hr, hf⟩ := hc.parked n r frame hold
      obtain ⟨e', he', hn', hr', hf'⟩ := errand_moves hm he
      exact ⟨e', he', hn'.trans hn, hr'.trans hr, hf'.trans hf⟩
    · cases hnew _ hlate

/-- A submission puts its frame into its slot. -/
theorem sourced_park (hc : Sourced c) {k : Nat} {e : Errand} (he : c.errands[k]? = some e)
    (hs : e.stage = .parking) (stage : Errand.Stage)
    (hm : Moves b c
      { c.onward k e stage with world := c.world.modifyInbox e.session (·.park e.role e.frame) }) :
    Sourced
      { c.onward k e stage with
        world := c.world.modifyInbox e.session (·.park e.role e.frame) } := by
  have htale : e.tale stage = [.parked e.session e.role e.frame] := by
    unfold Errand.tale
    rw [hs]
  refine ⟨fun n r frame hslot => ?_, fun n r frame hp => ?_⟩
  · change waiting n r (c.story ++ e.tale stage) = some frame
    rw [htale, waiting_parked]
    rw [World.slot?_modifyInbox] at hslot
    split at hslot
    · rename_i hn
      obtain ⟨i, hi, hslot⟩ := Option.bind_eq_some_iff.mp hslot
      rw [Inbox.slot_park] at hslot
      split at hslot
      · rename_i hr
        rw [if_pos ⟨hn, hr⟩]
        exact hslot
      · rename_i hr
        rw [if_neg (fun hboth => hr hboth.2)]
        refine hc.slot n r frame ?_
        rw [World.slot?_eq hi]
        exact hslot
    · rename_i hn
      rw [if_neg (fun hboth => hn hboth.1)]
      exact hc.slot n r frame hslot
  · change _ ∈ c.story ++ e.tale stage at hp
    rw [htale] at hp
    rcases List.mem_append.mp hp with hold | hlate
    · obtain ⟨e₁, he₁, hn, hr, hf⟩ := hc.parked n r frame hold
      obtain ⟨e', he', hn', hr', hf'⟩ := errand_moves hm he₁
      exact ⟨e', he', hn'.trans hn, hr'.trans hr, hf'.trans hf⟩
    · cases List.mem_singleton.mp hlate
      obtain ⟨hlt, _⟩ := List.getElem?_eq_some_iff.mp he
      exact ⟨{ e with stage }, List.mem_set hlt _, rfl, rfl, rfl⟩

/-- The thread takes a frame out of its slot, or it fills no slot. -/
theorem sourced_work (hc : Sourced c) {world : World σ} {events : List Event}
    (hw : World.Works b c.world world events) (told : List (Nat × Role)) :
    Sourced
      { c with world, told, story := c.story ++ events.map (.worked c.world.focus) } := by
  refine ⟨fun n r frame hslot => ?_, fun n r frame hp => ?_⟩
  · have hold := World.slot?_works hw hslot
    rcases World.uploads_works hw with ⟨active, role, taken, ht, _, hempty, rfl⟩ | hnone
    · have hf : c.world.focus = some active.session :=
        focus_of_session (by simp [World.session?, World.active?, ht])
      rw [hf, List.map_cons, List.map_nil, waiting_upload, if_neg]
      · exact hc.slot n r frame hold
      · rintro ⟨hn, rfl⟩
        cases hn
        exact absurd (hslot.symm.trans hempty) (Option.some_ne_none _)
    · rw [waiting_append_of_still]
      · exact hc.slot n r frame hold
      · intro x hx
        obtain ⟨event, hmem, rfl⟩ := List.mem_map.mp hx
        unfold Happening.fills
        split
        · rename_i heq; cases heq
        · rename_i heq
          cases heq
          exact absurd hmem (hnone _ _)
        · rfl
  · rcases List.mem_append.mp hp with hold | hlate
    · exact hc.parked n r frame hold
    · obtain ⟨_, _, heq⟩ := List.mem_map.mp hlate
      cases heq

theorem sourced_moves (hm : Moves b c c') (hc : Sourced c) : Sourced c' := by
  have asides : ∀ {x : Happening}, x.fills = false → ∀ y ∈ [x], y.fills = false := by
    intro x hx y hy
    rw [List.mem_singleton.mp hy]
    exact hx
  have hm' := hm
  cases hm with
  | accept _ _ hs | confirm _ hs | overtake _ hs | unheard _ hs | tell _ hs =>
    exact sourced_still hm' hc rfl (still_tale (by rw [hs]; nofun)) fun _ _ _ h => h
  | refuse _ _ hs | replace _ _ hs =>
    refine sourced_still hm' hc rfl (still_tale (by rw [hs]; nofun)) fun n r frame h => ?_
    refine World.slot?_modifyInbox_of (fun i _ hi => ?_) h
    exact (Inbox.slot_modifyStats i _ r _).symm.trans hi
  | withdraw _ _ hs =>
    refine sourced_still hm' hc rfl (still_tale (by rw [hs]; nofun)) fun n r frame h => ?_
    refine World.slot?_modifyInbox_of (fun i _ hi => ?_) h
    rw [Inbox.slot_withdraw] at hi
    split at hi
    · cases hi
    · exact hi
  | park he _ hs => exact sourced_park hc he hs _ hm'
  | work hw => exact sourced_work hc hw _
  | turnAway => exact sourced_still hm' hc rfl (asides rfl) fun _ _ _ h => h
  | approach =>
    exact sourced_still hm' hc (List.append_nil _).symm (by simp) fun _ _ _ h => h
  | owner hm =>
    obtain ⟨new, hstory, hnew⟩ := (spares_manages hm).story
    refine sourced_still hm' hc hstory (fun x hx => ?_) fun n r frame h => ?_
    · have hx := hnew x hx
      cases x <;> first | rfl | cases hx
    · rwa [(spares_manages hm).slot] at h

/-- A frame that waits came with a submission to the session. -/
theorem errand_of_waiting (hc : Sourced c) {n : Nat} {role : Role} {frame : Frame}
    (hw : waiting n role c.story = some frame) :
    ∃ e ∈ c.errands, e.session = n ∧ e.role = role ∧ e.frame = frame :=
  hc.parked n role frame (parked_of_waiting hw)

theorem traced_moves (hm : Moves b c c') (hc : Sourced c) (ht : Traced c) : Traced c' := by
  intro n role frame pre post hsplit
  obtain ⟨new, hstory, htell⟩ := moves_tells hm
  rw [hstory] at hsplit
  have later : ∀ e ∈ c.errands, e.session = n ∧ e.role = role ∧ e.frame = frame →
      ∃ e ∈ c'.errands, e.session = n ∧ e.role = role ∧ e.frame = frame := by
    rintro e he ⟨hn, hr, hf⟩
    obtain ⟨e', he', hn', hr', hf'⟩ := errand_moves hm he
    exact ⟨e', he', hn'.trans hn, hr'.trans hr, hf'.trans hf⟩
  rcases split_append hsplit with ⟨post', hold, _⟩ | ⟨pre', rfl, hnew⟩
  · obtain ⟨hw, e, he, heq⟩ := ht n role frame pre post' hold
    exact ⟨hw, later e he heq⟩
  · have hmem : Happening.worked (some n) (.call (.upload role frame)) ∈ new := by
      rw [hnew]
      exact List.mem_append_right _ List.mem_cons_self
    cases htell with
    | close => cases List.mem_singleton.mp hmem
    | aside haside => exact absurd (haside _ hmem) (by simp [Happening.isAside])
    | work hw =>
      obtain ⟨event, hevent, heq⟩ := List.mem_map.mp hmem
      injection heq with hfocus hcall
      subst hcall
      rcases World.uploads_works hw with ⟨active, r, f, hreach, hslot, _, rfl⟩ | hnone
      · cases List.mem_singleton.mp hevent
        have hs : c.world.session? = some active.session := by
          simp [World.session?, World.active?, hreach]
        have hn : active.session = n :=
          Option.some.inj ((focus_of_session hs).symm.trans hfocus)
        have hpre : pre' = [] := by
          have hlen := congrArg List.length hnew
          simp only [List.length_map, List.length_append, List.length_cons, List.length_nil] at hlen
          exact List.eq_nil_of_length_eq_zero (by omega)
        have hwait := hc.slot _ _ _ hslot
        rw [hn] at hwait
        rw [hpre, List.append_nil]
        obtain ⟨e, he, heq⟩ := errand_of_waiting hc hwait
        exact ⟨hwait, later e he heq⟩
      · exact absurd hevent (hnone _ _)

theorem sourced_run (b : Backend σ) (acts : List (Act σ)) : Sourced (run b acts) := by
  refine run_induction b acts ⟨fun n r frame hs => ?_, fun n r frame hp => ?_⟩ ?_
  · simp [new, World.new, World.slot?, World.inbox?] at hs
  · simp [new] at hp
  · intro c c' hc hm
    exact sourced_moves hm hc

/-- Every upload takes a frame that waits in a slot of the session it is for. -/
theorem traced_run (b : Backend σ) (acts : List (Act σ)) : Traced (run b acts) := by
  have hboth := run_induction (P := fun c => Sourced c ∧ Traced c) b acts ?_ ?_
  · exact hboth.2
  · refine ⟨sourced_run b [], fun n role frame pre post hsplit => ?_⟩
    simp [new] at hsplit
  · rintro c c' ⟨hc, ht⟩ hm
    exact ⟨sourced_moves hm hc, traced_moves hm hc ht⟩

/-! ### Notifications -/

/-- The thread heeds a notification without a word, whoever sent it: it turns to the slot of the
session that it draws for, and empties the slots of one that takes no more frames. -/
theorem work_of_told (h : Sound c) {active : Active σ} {m : Nat} {role : Role}
    {rest : List (Nat × Role)} (ht : c.world.thread = .idle (some active))
    (hn : c.world.isToldNext = true) (htold : c.told = (m, role) :: rest) :
    (c.work b).story = c.story ∧ (c.work b).told = rest ∧
      ((c.work b).world.thread = .reaching active role ∧
          (c.work b).world.inboxes = c.world.inboxes ∨
        c.world.isStopping active.session = true ∧
          (c.work b).world.inboxes = (c.world.modifyInbox active.session .clearSlots).inboxes) := by
  have hqueue := h.told_queue
  unfold World.isToldNext at hn
  split at hn
  · rename_i r queue _ hq
    rw [hq, htold, List.filterMap_cons, List.map_cons] at hqueue
    obtain rfl : r = role := by
      simpa [Task.role?] using (List.cons.inj hqueue).1
    have hstep : c.world.work b = ({ c.world with queue }.heed active r, []) := by
      simp only [World.work, World.dequeue, ht, hq]
    have hnext : c.world.isToldNext = true := by simp [World.isToldNext, ht, hq]
    unfold work
    simp only [hstep, hnext, List.map_nil, List.append_nil, htold, if_true, List.tail_cons,
      true_and]
    unfold World.heed
    split
    · rename_i hs
      refine ⟨?_, .inr ⟨hs, rfl⟩⟩
      simp [World.listening, ht]
    · exact ⟨rfl, .inl ⟨rfl, rfl⟩⟩
  · cases hn

/-- At the slot, the thread begins the upload of the frame that waits there, or does nothing. -/
theorem work_of_reaching (hc : Sourced c) {active : Active σ} {role : Role}
    (ht : c.world.thread = .reaching active role) :
    (c.work b).story = c.story ∧ (c.work b).world.inboxes = c.world.inboxes ∨
      ∃ frame, waiting active.session role c.story = some frame ∧
        (c.work b).story =
          c.story ++ [.worked (some active.session) (.call (.upload role frame))] := by
  have hf : c.world.focus = some active.session :=
    focus_of_session (by simp [World.session?, World.active?, ht])
  unfold work
  simp only [World.work, World.reach, ht, hf]
  split
  · exact .inl ⟨List.append_nil _, rfl⟩
  · rename_i frame hs
    exact .inr ⟨frame, hc.slot _ _ _ hs, rfl⟩

/-! ## Sessions keep apart -/

theorem idle_of_toldNext {w : World σ} {n : Nat} (hn : w.isToldNext = true)
    (hs : w.session? = some n) : ∃ active, w.thread = .idle (some active) := by
  cases ht : w.thread with
  | idle active =>
    cases active with
    | none => simp [World.session?, World.active?, ht] at hs
    | some active => exact ⟨active, rfl⟩
  | reaching | uploading | failing | gone => simp [World.isToldNext, ht] at hn

/-- Whatever owner, producers and thread do in any order: once the stop of a session has
returned, nothing is ever done in its backend again, which was given up exactly once. A backend
is handed only frames that wait in a slot of its own session, where a submission to this session
has put them. A notification does not change that, whoever sent it: the thread takes a frame that
waits for the session that it draws for, or does nothing. -/
theorem sessions_keep_apart (b : Backend σ) (acts : List (Act σ)) :
    let c := run b acts
    (∀ n pre post, c.story = pre ++ .stopped n :: post →
      drops n pre = 1 ∧ workFor n post = []) ∧
    (∀ n role frame pre post,
      c.story = pre ++ .worked (some n) (.call (.upload role frame)) :: post →
        waiting n role pre = some frame ∧
          ∃ e ∈ c.errands, e.session = n ∧ e.role = role ∧ e.frame = frame) ∧
    (∀ active m role rest, c.world.thread = .idle (some active) → c.world.isToldNext = true →
      c.told = (m, role) :: rest →
        (c.work b).story = c.story ∧ (c.work b).told = rest ∧
          ((c.work b).world.thread = .reaching active role ∧
              (c.work b).world.inboxes = c.world.inboxes ∨
            c.world.isStopping active.session = true ∧
              (c.work b).world.inboxes =
                (c.world.modifyInbox active.session .clearSlots).inboxes)) ∧
    ∀ active role, c.world.thread = .reaching active role →
      (c.work b).story = c.story ∧ (c.work b).world.inboxes = c.world.inboxes ∨
        ∃ frame, waiting active.session role c.story = some frame ∧
          (c.work b).story =
            c.story ++ [.worked (some active.session) (.call (.upload role frame))] := by
  intro c
  refine ⟨fun n pre post hsplit => ?_, traced_run b acts, fun active m role rest ht hn htold => ?_,
    fun active role ht => ?_⟩
  · exact (rests_run b acts n pre post hsplit).2
  · exact work_of_told (sound_run b acts) ht hn htold
  · exact work_of_reaching (sourced_run b acts) ht

/-- A submission to the first session is cut right before the thread is told. The session stops,
another one starts, and the thread of the other one is told then. It looks for a frame of its own
session and finds none. -/
theorem a_late_announcement_finds_nothing :
    let b := obliging (.done ())
    let start : List (Act Unit) :=
      [.start onePixel (fun _ => ⟨.done (), []⟩) (.steady 1), .work, .proceed]
    let acts := start ++
      [.approach 0 .primary (pixel 9 9 9), .advance 0, .advance 0, .advance 0] ++
      [.stop, .proceed, .work, .proceed] ++ start ++ [.advance 0]
    let c := run b acts
    c.told = [(0, .primary)] ∧ c.world.session? = some 1 ∧ drops 0 c.story = 1 ∧
      ((c.work b).story = c.story ∧ (c.work b).told = []) ∧
      ((c.work b).work b).story.length = c.story.length := by
  intro b start acts
  -- The run is not evaluated where the law is applied.
  have hpassed : ∀ acts : List (Act Unit), (run b acts).told = [(0, .primary)] →
      (run b acts).world.isToldNext = true → (run b acts).world.session? = some 1 →
      ((run b acts).work b).story = (run b acts).story ∧ ((run b acts).work b).told = [] := by
    intro acts htold hnext hsession
    obtain ⟨active, ht⟩ := idle_of_toldNext hnext hsession
    have hlate := (sessions_keep_apart b acts).2.2.1 active 0 .primary [] ht hnext htold
    exact ⟨hlate.1, hlate.2.1⟩
  have htold : (run b acts).told = [(0, .primary)] := by decide +kernel
  have hnext : (run b acts).world.isToldNext = true := by decide +kernel
  have hsession : (run b acts).world.session? = some 1 := by decide +kernel
  exact ⟨htold, hsession, by decide +kernel, hpassed acts htold hnext hsession,
    by decide +kernel⟩

end Course

end PictureInPicture
