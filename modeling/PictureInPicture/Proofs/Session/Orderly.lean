-- Courses in which nobody comes in between a submission. A submission is then one of six
-- things, and it does to the world what `World.submit` does.
import PictureInPicture.Proofs.Session.Story

namespace PictureInPicture

variable {σ : Type} {b : Backend σ}

/-- One thing that happens when nobody comes in between a submission. -/
inductive Deed (σ : Type) where
  | submit (session : Nat) (role : Role) (frame : Frame)
  | work
  | start (config : Config Float32) (factory : Factory σ) (clock : Clock)
  | stop
  | leave
  | proceed

namespace Course

variable {c c' : Course σ}

/-! ## Whole submissions -/

/-- A submission goes on for so many steps. -/
def advances (errand : Nat) : Nat → Course σ → Course σ
  | 0, c => c
  | n + 1, c => advances errand n (c.advance errand)

/-- A submission from its beginning to its end. It is at its end after five steps. -/
def submit (c : Course σ) (session : Nat) (role : Role) (frame : Frame) : Course σ :=
  advances c.errands.length 5 (c.approach session role frame)

def perform (b : Backend σ) (c : Course σ) : Deed σ → Course σ
  | .submit session role frame => c.submit session role frame
  | .work => c.work b
  | .start config factory clock => c.start config factory clock
  | .stop => c.stop
  | .leave => c.leave
  | .proceed => c.proceed

/-- The course of so many deeds. -/
def play (b : Backend σ) (deeds : List (Deed σ)) : Course σ := deeds.foldl (perform b) (new σ)

/-- The steps of a deed. -/
def acts (c : Course σ) : Deed σ → List (Act σ)
  | .submit session role frame =>
    .approach session role frame :: List.replicate 5 (.advance c.errands.length)
  | .work => [.work]
  | .start config factory clock => [.start config factory clock]
  | .stop => [.stop]
  | .leave => [.leave]
  | .proceed => [.proceed]

theorem perform_acts (b : Backend σ) (c : Course σ) (deed : Deed σ) :
    c.perform b deed = (c.acts deed).foldl (step b) c := by
  cases deed <;> rfl

/-- Deeds are steps in one of the orders that steps can come in. -/
theorem play_run (b : Backend σ) (deeds : List (Deed σ)) : ∃ acts, play b deeds = run b acts := by
  induction deeds using List.reverseRecOn with
  | nil => exact ⟨[], rfl⟩
  | append_singleton deeds deed ih =>
    obtain ⟨acts, ih⟩ := ih
    refine ⟨acts ++ (play b deeds).acts deed, ?_⟩
    unfold play run at ih ⊢
    rw [List.foldl_append, List.foldl_append, ← ih]
    exact perform_acts b _ deed

/-- The course after a submission that leaves its session as `world`. -/
def handed (c : Course σ) (session : Nat) (role : Role) (frame : Frame) (world : World σ)
    (result : Except BufferFault Submission) (story : List Happening) : Course σ :=
  { c with
    world
    errands := c.errands ++ [⟨session, role, frame, .done result⟩]
    story := c.story ++ story ++ [.answered session role frame result] }

/-- What a whole submission can do. -/
inductive Hands (c : Course σ) (n : Nat) (role : Role) (frame : Frame) : Course σ → Prop where
  | ignore (hs : c.world.isStopping n = true) :
      Hands c n role frame (c.handed n role frame c.world (.ok .ignored) [])
  | refuse {inbox fault} (hi : c.world.inbox? n = some inbox)
      (hs : c.world.isStopping n = false)
      (hv : frame.validateFor role (inbox.declared.get role) = .error fault) :
      Hands c n role frame
        (c.handed n role frame (c.world.modifyInbox n (·.countRejected role)) (.error fault) [])
  | replace {inbox} (hi : c.world.inbox? n = some inbox) (hs : c.world.isStopping n = false)
      (hv : frame.validateFor role (inbox.declared.get role) = .ok ())
      (hslot : (inbox.slot role).isSome = true) :
      Hands c n role frame
        (c.handed n role frame
          (c.world.modifyInbox n fun i => (i.park role frame).countDropped role)
          (.ok .replaced) [.parked n role frame])
  | queue {inbox} (hi : c.world.inbox? n = some inbox) (hs : c.world.isStopping n = false)
      (hv : frame.validateFor role (inbox.declared.get role) = .ok ())
      (hslot : (inbox.slot role).isSome = false) (hl : c.world.listening = true) :
      Hands c n role frame
        { c.handed n role frame
            { c.world.modifyInbox n (·.park role frame) with
              queue := c.world.queue ++ [.frameReady role] }
            (.ok .queued) [.parked n role frame] with
          told := c.told ++ [(n, role)] }
  | miss {inbox} (hi : c.world.inbox? n = some inbox) (hs : c.world.isStopping n = false)
      (hv : frame.validateFor role (inbox.declared.get role) = .ok ())
      (hslot : (inbox.slot role).isSome = false) (hl : c.world.listening = false) :
      Hands c n role frame
        (c.handed n role frame
          (c.world.modifyInbox n fun i => (i.park role frame).withdraw role)
          (.ok .ignored) [.parked n role frame])

/-! ### The steps of a submission -/

section

variable {n : Nat} {role : Role} {frame : Frame}

/-- The course in the middle of a submission. -/
def midway (c : Course σ) (n : Nat) (role : Role) (frame : Frame) (world : World σ)
    (stage : Errand.Stage) (told : List (Nat × Role)) (story : List Happening) : Course σ :=
  { c with world, errands := c.errands ++ [⟨n, role, frame, stage⟩], told, story }

theorem midway_advance {world : World σ} {stage : Errand.Stage} {told : List (Nat × Role)}
    {story : List Happening} {i : Inbox} (hi : world.inbox? n = some i) :
    (c.midway n role frame world stage told story).advance c.errands.length =
      c.midway n role frame
        (if (Errand.next ⟨n, role, frame, stage⟩ i world.listening).2.2 then
          (world.setInbox n (Errand.next ⟨n, role, frame, stage⟩ i world.listening).1).post
            (.frameReady role)
        else world.setInbox n (Errand.next ⟨n, role, frame, stage⟩ i world.listening).1)
        (Errand.next ⟨n, role, frame, stage⟩ i world.listening).2.1
        (if (Errand.next ⟨n, role, frame, stage⟩ i world.listening).2.2 then
          told ++ [(n, role)] else told)
        (story ++ Errand.tale ⟨n, role, frame, stage⟩
          (Errand.next ⟨n, role, frame, stage⟩ i world.listening).2.1) := by
  simp only [midway, advance, List.getElem?_append_right (Nat.le_refl _), Nat.sub_self,
    List.getElem?_cons_zero, hi, List.set_append_right _ _ (Nat.le_refl _), List.set_cons_zero]
  rfl

theorem midway_done {world : World σ} {result : Except BufferFault Submission}
    {told : List (Nat × Role)} {story : List Happening} (k : Nat) :
    advances c.errands.length k (c.midway n role frame world (.done result) told story) =
      c.midway n role frame world (.done result) told story := by
  induction k with
  | zero => rfl
  | succ k ih =>
    unfold advances
    rw [advance_done (e := ⟨n, role, frame, .done result⟩) (by simp [midway]) rfl]
    exact ih

theorem inbox?_modifyInbox_self {w : World σ} {i : Inbox} (f : Inbox → Inbox)
    (hi : w.inbox? n = some i) : (w.modifyInbox n f).inbox? n = some (f i) := by
  rw [World.inbox?_modifyInbox, if_pos rfl, hi]
  rfl

theorem advances_succ (k m : Nat) : advances k (m + 1) c = advances k m (c.advance k) := rfl

/-- A frame that is accepted is put into its slot, and the flag is down. -/
theorem midway_parked {i : Inbox} (hi : c.world.inbox? n = some i)
    (hs : c.world.isStopping n = false)
    (hv : frame.validateFor role (i.declared.get role) = .ok ()) :
    advances c.errands.length 3
        (c.midway n role frame c.world .checking c.told c.story) =
      c.midway n role frame (c.world.modifyInbox n (·.park role frame))
        (.telling (i.slot role).isSome) c.told (c.story ++ [.parked n role frame]) := by
  have hpark := inbox?_modifyInbox_self (·.park role frame) hi
  have hflag : (i.park role frame).stopping = false := by
    rw [Inbox.stopping_park, ← World.isStopping_eq hi]
    exact hs
  rw [advances_succ, midway_advance hi]
  simp only [Errand.next, Inbox.inspect, hv, Bool.false_eq_true, if_false, World.setInbox_self hi,
    Errand.tale, List.append_nil]
  rw [advances_succ, midway_advance hi]
  simp only [Errand.next, Bool.false_eq_true, if_false, Errand.tale,
    World.setInbox_eq_modifyInbox (·.park role frame) hi]
  rw [advances_succ, midway_advance hpark]
  simp only [Errand.next, hflag, Bool.false_eq_true, if_false, Errand.tale, List.append_nil,
    World.setInbox_self hpark]
  rfl

end

theorem advances_add (k m m' : Nat) (c : Course σ) :
    advances k (m + m') c = advances k m' (advances k m c) := by
  induction m generalizing c with
  | zero => simp [advances]
  | succ m ih =>
    rw [Nat.succ_add, advances_succ, advances_succ]
    exact ih _

theorem inbox_of_endpoint (h : Sound c) {n : Nat} (hn : n ∈ c.endpoints) :
    ∃ i, c.world.inbox? n = some i :=
  ⟨_, List.getElem?_eq_getElem (h.endpoint_lt n hn)⟩

theorem advances_past {k : Nat} (hk : c.errands[k]? = none) (m : Nat) : advances k m c = c := by
  induction m with
  | zero => rfl
  | succ m ih =>
    have hstay : c.advance k = c := by simp [advance, hk]
    rw [advances_succ, hstay]
    exact ih

/-- The thread is told of a frame that displaced none. -/
theorem midway_telling {world : World σ} {i : Inbox} {told : List (Nat × Role)}
    {story : List Happening} {n : Nat} {role : Role} {frame : Frame}
    (hi : world.inbox? n = some i) (hl : world.listening = true) :
    (c.midway n role frame world (.telling false) told story).advance c.errands.length =
      c.midway n role frame { world with queue := world.queue ++ [.frameReady role] }
        (.done (.ok .queued)) (told ++ [(n, role)])
        (story ++ [.answered n role frame (.ok .queued)]) := by
  rw [midway_advance hi]
  simp only [Errand.next, hl, if_true, World.setInbox_self hi, World.post_of_listening hl,
    Errand.tale]

theorem submit_ignore {n : Nat} (hn : n ∈ c.endpoints) (hs : c.world.isStopping n = true)
    (role : Role) (frame : Frame) :
    c.submit n role frame = c.handed n role frame c.world (.ok .ignored) [] := by
  have happroach : c.approach n role frame =
      c.midway n role frame c.world (.done (.ok .ignored)) c.told
        (c.story ++ [.answered n role frame (.ok .ignored)]) := by
    simp only [approach, hn, hs, if_true]
    rfl
  unfold submit handed
  rw [happroach, midway_done, List.append_nil]
  rfl

section

variable {n : Nat} {i : Inbox} {role : Role} {frame : Frame}

theorem approach_checking (hn : n ∈ c.endpoints) (hs : c.world.isStopping n = false) :
    c.approach n role frame = c.midway n role frame c.world .checking c.told c.story := by
  simp only [approach, hn, hs, if_true, Bool.false_eq_true, if_false]
  rfl

theorem submit_refuse (hn : n ∈ c.endpoints) (hi : c.world.inbox? n = some i)
    (hs : c.world.isStopping n = false) {fault : BufferFault}
    (hv : frame.validateFor role (i.declared.get role) = .error fault) :
    c.submit n role frame =
      c.handed n role frame (c.world.modifyInbox n (·.countRejected role)) (.error fault) [] := by
  unfold submit handed
  rw [approach_checking hn hs, advances_succ, midway_advance hi]
  simp only [Errand.next, Inbox.inspect, hv, Bool.false_eq_true, if_false, Errand.tale,
    World.setInbox_eq_modifyInbox (·.countRejected role) hi, midway_done, List.append_nil]
  rfl

theorem submit_parked (hn : n ∈ c.endpoints) (hi : c.world.inbox? n = some i)
    (hs : c.world.isStopping n = false)
    (hv : frame.validateFor role (i.declared.get role) = .ok ()) :
    c.submit n role frame =
      advances c.errands.length 2
        (c.midway n role frame (c.world.modifyInbox n (·.park role frame))
          (.telling (i.slot role).isSome) c.told (c.story ++ [.parked n role frame])) := by
  unfold submit
  rw [approach_checking hn hs, ← midway_parked hi hs hv, ← advances_add]

end

/-- A submission that nobody interrupts does one of five things. -/
theorem submit_handed (h : Sound c) {n : Nat} (hn : n ∈ c.endpoints) (role : Role)
    (frame : Frame) : Hands c n role frame (c.submit n role frame) := by
  obtain ⟨i, hi⟩ := inbox_of_endpoint h hn
  cases hs : c.world.isStopping n with
  | true =>
    rw [submit_ignore hn hs]
    exact .ignore hs
  | false =>
    cases hv : frame.validateFor role (i.declared.get role) with
    | error fault =>
      rw [submit_refuse hn hi hs hv]
      exact .refuse hi hs hv
    | ok =>
      have hpark := inbox?_modifyInbox_self (·.park role frame) hi
      rw [submit_parked hn hi hs hv, advances_succ]
      cases hslot : (i.slot role).isSome with
      | true =>
        have hand := Hands.replace hi hs hv hslot
        rw [midway_advance hpark]
        simp only [Errand.next, Bool.false_eq_true, if_false, Errand.tale, midway_done,
          World.setInbox_eq_modifyInbox (·.countDropped role) hpark]
        simp only [World.modifyInbox, List.modify_modify_eq]
        exact hand
      | false =>
        cases hl : c.world.listening with
        | true =>
          rw [midway_telling hpark hl, midway_done]
          exact .queue hi hs hv hslot hl
        | false =>
          have hand := Hands.miss hi hs hv hslot hl
          rw [midway_advance hpark]
          simp only [Errand.next, World.listening_modifyInbox, hl, Bool.false_eq_true, if_false,
            Errand.tale, List.append_nil, World.setInbox_self hpark]
          rw [advances_succ, midway_advance hpark]
          simp only [Errand.next, Bool.false_eq_true, if_false, Errand.tale,
            World.setInbox_eq_modifyInbox (·.withdraw role) hpark]
          simp only [World.modifyInbox, List.modify_modify_eq]
          exact hand

/-- Nothing is done for an endpoint that was never handed out. -/
theorem submit_hands (h : Sound c) (n : Nat) (role : Role) (frame : Frame) :
    c.submit n role frame = c ∨
      n ∈ c.endpoints ∧ Hands c n role frame (c.submit n role frame) := by
  by_cases hn : n ∈ c.endpoints
  · exact .inr ⟨hn, submit_handed h hn role frame⟩
  · left
    have happroach : c.approach n role frame = c := by simp [approach, hn]
    unfold submit
    rw [happroach]
    exact advances_past (by simp) 5

/-- A whole submission does to the world what `World.submit` does, and has its answer. -/
theorem hands_submit {n : Nat} {role : Role} {frame : Frame} (h : Hands c n role frame c') :
    c'.world = (c.world.submit n role frame).1 ∧
      c'.errands = c.errands ++ [⟨n, role, frame, .done (c.world.submit n role frame).2⟩] := by
  have inbox_of_stopping : c.world.isStopping n = true →
      ∃ i, c.world.inbox? n = some i ∧ i.stopping = true := by
    intro hs
    unfold World.isStopping at hs
    cases hi : c.world.inbox? n with
    | none => simp [hi] at hs
    | some i => exact ⟨i, rfl, by simpa [hi] using hs⟩
  cases h with
  | ignore hs =>
    obtain ⟨i, hi, hs⟩ := inbox_of_stopping hs
    simp [World.submit, hi, Inbox.submit, hs, World.setInbox_self hi, handed]
  | refuse hi hs hv =>
    rw [World.isStopping_eq hi] at hs
    simp [World.submit, hi, Inbox.submit, hs, Inbox.inspect, hv, handed,
      World.setInbox_eq_modifyInbox (·.countRejected role) hi]
  | replace hi hs hv hslot =>
    rw [World.isStopping_eq hi] at hs
    simp [World.submit, hi, Inbox.submit, hs, Inbox.inspect, hv, handed, hslot, Inbox.conclude,
      World.setInbox_eq_modifyInbox (fun i => (i.park role frame).countDropped role) hi]
  | queue hi hs hv hslot hl =>
    rw [World.isStopping_eq hi] at hs
    have hpost : (c.world.modifyInbox n (·.park role frame)).post (.frameReady role) = _ :=
      World.post_of_listening hl
    simp [World.submit, hi, Inbox.submit, hs, Inbox.inspect, hv, handed, hslot, Inbox.conclude, hl,
      World.setInbox_eq_modifyInbox (·.park role frame) hi, hpost]
  | miss hi hs hv hslot hl =>
    rw [World.isStopping_eq hi] at hs
    simp [World.submit, hi, Inbox.submit, hs, Inbox.inspect, hv, handed, hslot, Inbox.conclude, hl,
      World.setInbox_eq_modifyInbox (fun i => (i.park role frame).withdraw role) hi]

/-! ## What anybody can do -/

/-- One deed that changes something. -/
inductive Strides (b : Backend σ) (c : Course σ) : Course σ → Prop where
  | hand {next n role frame} (hn : n ∈ c.endpoints) (h : Hands c n role frame next) :
      Strides b c next
  | work {world events} (h : World.Works b c.world world events) :
      Strides b c
        { c with
          world
          told :=
            if world.listening then if c.world.isToldNext then c.told.tail else c.told else []
          story := c.story ++ events.map (.worked c.world.focus) }
  | owner {next} (h : Manages c next) : Strides b c next

theorem perform_strides (h : Sound c) (b : Backend σ) (deed : Deed σ) :
    c.perform b deed = c ∨ Strides b c (c.perform b deed) := by
  cases deed with
  | submit n role frame =>
    exact (submit_hands h n role frame).imp_right fun hand => .hand hand.1 hand.2
  | work => exact .inr (.work (World.work_works b c.world))
  | start config factory clock => exact (start_manages config factory clock).imp_right .owner
  | stop => exact stop_manages.imp_right .owner
  | leave => exact leave_manages.imp_right .owner
  | proceed => exact proceed_manages.imp_right .owner

/-- What holds of a course of deeds, and after every deed from where it holds, holds whatever else
is done. -/
theorem later_play {P : Course σ → Prop} (b : Backend σ) (deeds more : List (Deed σ))
    (h : P (play b deeds))
    (hstep : ∀ c c', (∃ acts, c = run b acts) → P c → Strides b c c' → P c') :
    P (play b (deeds ++ more)) := by
  induction more using List.reverseRecOn with
  | nil => rwa [List.append_nil]
  | append_singleton more deed ih =>
    obtain ⟨acts, hrun⟩ := play_run b (deeds ++ more)
    have hsound : Sound (play b (deeds ++ more)) := hrun ▸ sound_run b acts
    have hlast : play b (deeds ++ (more ++ [deed])) = (play b (deeds ++ more)).perform b deed := by
      unfold play
      rw [← List.append_assoc, List.foldl_append]
      rfl
    rw [hlast]
    rcases perform_strides hsound b deed with hsame | hstride
    · rw [hsame]; exact ih
    · exact hstep _ _ ⟨acts, hrun⟩ ih hstride

/-- What holds at the beginning, and after every deed from where it holds, holds of every course
of deeds. -/
theorem play_induction {P : Course σ → Prop} (b : Backend σ) (deeds : List (Deed σ))
    (hnew : P (new σ))
    (hstep : ∀ c c', (∃ acts, c = run b acts) → P c → Strides b c c' → P c') :
    P (play b deeds) :=
  later_play b [] deeds hnew hstep

end Course

/-! ## A session of one pixel -/

/-- Settings with one pixel everywhere. -/
def onePixel : Config Float32 :=
  let c : Config Float32 := .withSizes ⟨1, 1⟩ ⟨1, 1⟩ ⟨1, 1⟩
  { c with sources := .twice ⟨⟨1, 1⟩, .packed .rgba⟩ }

/-- A frame of one pixel. -/
def pixel (red green blue : UInt8) : Frame :=
  .packed (.filled 1 1 ⟨#[red, green, blue, 255]⟩)

/-- A backend that does nothing, and whose uploads end as they are told to. -/
def obliging (upload : Outcome Unit) : Backend Unit where
  upload s _ _ := ⟨s, upload, []⟩
  render s _ _ := ⟨s, .done .presented, []⟩

/-- The owner starts a session of one pixel with a backend, and has its endpoints. -/
def opening (backend : σ) : List (Deed σ) :=
  [.start onePixel (fun _ => ⟨.done backend, []⟩) (.steady 1), .work, .proceed]

end PictureInPicture
