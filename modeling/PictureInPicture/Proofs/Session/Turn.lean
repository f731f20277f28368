-- What a turn of the drawing loop can do, said once: it is withheld, drawn or failed, and it
-- leaves the slots and the stop flag alone.
import PictureInPicture.Session.Loop

namespace PictureInPicture

namespace Inbox

/-! ## What the loop leaves as it was -/

/-- Two states of a session with the same slots, flag, declared sources and numbers of frames
that were dropped. -/
structure SameSlots (i j : Inbox) : Prop where
  stopping : i.stopping = j.stopping
  declared : i.declared = j.declared
  slot : ∀ r, i.slot r = j.slot r
  dropped : ∀ r, (i.stats.sources.get r).dropped = (j.stats.sources.get r).dropped

namespace SameSlots

theorem rfl' (i : Inbox) : SameSlots i i := ⟨rfl, rfl, fun _ => rfl, fun _ => rfl⟩

theorem trans {i j k : Inbox} (h : SameSlots i j) (h' : SameSlots j k) : SameSlots i k :=
  ⟨h.stopping.trans h'.stopping, h.declared.trans h'.declared,
    fun r => (h.slot r).trans (h'.slot r), fun r => (h.dropped r).trans (h'.dropped r)⟩

theorem modifyStats (i : Inbox) (r : Role) {g : SourceStats → SourceStats}
    (hg : ∀ s, (g s).dropped = s.dropped) : SameSlots (i.modifyStats r g) i where
  stopping := rfl
  declared := rfl
  slot r' := slot_modifyStats i r r' g
  dropped r' := by
    rw [stats_modifyStats]
    split
    · rename_i h; rw [hg, h]
    · rfl

theorem countRejected (i : Inbox) (r : Role) : SameSlots (i.countRejected r) i :=
  modifyStats i r fun _ => rfl

theorem countUploaded (i : Inbox) (r : Role) : SameSlots (i.countUploaded r) i :=
  modifyStats i r fun _ => rfl

theorem markFresh (i : Inbox) (r : Role) : SameSlots (i.markFresh r) i where
  stopping := rfl
  declared := rfl
  slot := slot_markFresh i r
  dropped r' := by
    unfold Inbox.markFresh
    rw [stats_modifyInlet]
    intro inlet
    rfl

theorem clearFresh (i : Inbox) : SameSlots i.clearFresh i where
  stopping := rfl
  declared := rfl
  slot := slot_clearFresh i
  dropped r := by simp [stats, Inbox.clearFresh]

theorem countRendered (i : Inbox) : SameSlots i.countRendered i :=
  ⟨rfl, rfl, fun _ => rfl, fun _ => rfl⟩

theorem countSkipped (i : Inbox) : SameSlots i.countSkipped i :=
  ⟨rfl, rfl, fun _ => rfl, fun _ => rfl⟩

end SameSlots

end Inbox

namespace Event

/-- A frame begins its way into a backend or ends it, or the backend ends. -/
def isMilestone : Event → Bool
  | call (.upload ..) => true
  | uploaded .. => true
  | drop => true
  | _ => false

/-- A call on the backend has crashed. -/
def isCrash : Event → Bool
  | uploaded _ (.crashed _) => true
  | rendered _ (.crashed _) => true
  | _ => false

theorem filter_milestones_effects (effects : List Effect) :
    (effects.map effect).filter isMilestone = [] := by
  simp [List.filter_eq_nil_iff, isMilestone]

theorem filter_milestones_notices (notices : List Notice) :
    (notices.map notice).filter isMilestone = [] := by
  simp [List.filter_eq_nil_iff, isMilestone, notice]

end Event

namespace Outcome

variable {β γ : Type}

/-- The same end of a call, with its value made into another one. -/
def map (f : β → γ) : Outcome β → Outcome γ
  | done value => done (f value)
  | failed fault => failed fault
  | crashed crash => crashed crash

def isDone : Outcome β → Bool
  | done _ => true
  | _ => false

def isFailed : Outcome β → Bool
  | failed _ => true
  | _ => false

def isCrashed : Outcome β → Bool
  | crashed _ => true
  | _ => false

end Outcome

namespace Loop

variable {σ : Type}

/-! ## Drawing -/

/-- The answer to the next drawing. -/
def nextReply (b : Backend σ) (l : Loop σ) : Reply σ Presentation :=
  b.render l.backend (l.plan.drawOps l.gate.residency) l.clock.sample.1

/-- The loop after it has drawn. -/
def drawn (b : Backend σ) (l : Loop σ) : Loop σ :=
  { l with clock := l.clock.sample.2, backend := (l.nextReply b).state }

/-- What happens while the loop draws. -/
def drawing (b : Backend σ) (l : Loop σ) : List Event :=
  .call (.render (l.plan.drawOps l.gate.residency) l.clock.sample.1) ::
    ((l.nextReply b).effects.map .effect ++ [.rendered l.clock.sample.1 (l.nextReply b).outcome])

/-- The turn of a loop that is to draw. -/
inductive Draws (b : Backend σ) (l : Loop σ) (i : Inbox) : Turn σ Attempt → Prop where
  | withhold (hg : l.gate.isOpen = false) (n : Notice) :
      Draws b l i ⟨l, i, .done .withheld, [.notice n]⟩
  | present (hg : l.gate.isOpen = true) (ho : (l.nextReply b).outcome = .done .presented)
      (notices : List Notice) :
      Draws b l i
        ⟨l.drawn b, i.clearFresh.countRendered, .done (.rendered l.clock.sample.1),
          l.drawing b ++ notices.map .notice⟩
  | skip (hg : l.gate.isOpen = true) (ho : (l.nextReply b).outcome = .done .skipped)
      (n : Notice) :
      Draws b l i ⟨l.drawn b, i.countSkipped, .done .skipped, l.drawing b ++ [.notice n]⟩
  | fail {fault} (hg : l.gate.isOpen = true) (ho : (l.nextReply b).outcome = .failed fault) :
      Draws b l i ⟨l.drawn b, i, .failed fault, l.drawing b⟩
  | crash {crash} (hg : l.gate.isOpen = true) (ho : (l.nextReply b).outcome = .crashed crash) :
      Draws b l i ⟨l.drawn b, i, .crashed crash, l.drawing b⟩

theorem tryRender_draws (b : Backend σ) (l : Loop σ) (i : Inbox) :
    Draws b l i (l.tryRender b i) := by
  unfold tryRender
  split
  · rename_i hg
    exact .withhold (by simpa using hg) _
  · rename_i hg
    have hg : l.gate.isOpen = true := by simpa using hg
    dsimp only
    split
    · rename_i ho
      exact .present hg ho _
    · rename_i ho
      exact .skip hg ho _
    · rename_i fault ho
      exact .fail hg ho
    · rename_i crash ho
      exact .crash hg ho

/-! ## Uploading -/

/-- The loop after an upload. -/
def uploaded (b : Backend σ) (l : Loop σ) (role : Role) (frame : Frame) : Loop σ :=
  { l with backend := (b.upload l.backend role frame).state }

/-- The loop after an upload that gave its source a picture. -/
def admitted (b : Backend σ) (l : Loop σ) (role : Role) (frame : Frame) : Loop σ :=
  { l.uploaded b role frame with gate := l.gate.recordUpload role }

/-- What happens while the loop uploads. -/
def uploading (b : Backend σ) (l : Loop σ) (role : Role) (frame : Frame) : List Event :=
  (b.upload l.backend role frame).effects.map .effect ++
    [.uploaded role (b.upload l.backend role frame).outcome]

/-- The turn of a loop that has picked up a frame. -/
inductive Processes (b : Backend σ) (l : Loop σ) (i : Inbox) (role : Role) (frame : Frame) :
    Turn σ (Option Attempt) → Prop where
  | fail {fault} (ho : (b.upload l.backend role frame).outcome = .failed fault)
      (hf : fault.isFatal = true) :
      Processes b l i role frame
        ⟨l.uploaded b role frame, i, .failed fault, l.uploading b role frame⟩
  | reject {fault} (ho : (b.upload l.backend role frame).outcome = .failed fault)
      (hf : fault.isFatal = false) (n : Notice) :
      Processes b l i role frame
        ⟨l.uploaded b role frame, i.countRejected role, .done none,
          l.uploading b role frame ++ [.notice n]⟩
  | crash {crash} (ho : (b.upload l.backend role frame).outcome = .crashed crash) :
      Processes b l i role frame
        ⟨l.uploaded b role frame, i, .crashed crash, l.uploading b role frame⟩
  | store {turn} (ho : (b.upload l.backend role frame).outcome = .done ())
      (notices : List Notice)
      (hd : Draws b (l.admitted b role frame) ((i.markFresh role).countUploaded role) turn) :
      Processes b l i role frame
        ⟨turn.loop, turn.inbox, turn.outcome.map some,
          l.uploading b role frame ++ notices.map .notice ++ turn.events⟩

theorem process_processes (b : Backend σ) (l : Loop σ) (i : Inbox) (role : Role)
    (frame : Frame) : Processes b l i role frame (l.process b i role frame) := by
  unfold process
  dsimp only
  split
  · rename_i fault ho
    split
    · rename_i hf
      exact .fail ho hf
    · rename_i hf
      exact .reject ho (Bool.eq_false_iff.mpr hf) _
  · rename_i crash ho
    exact .crash ho
  · rename_i ho
    have happen := Processes.store ho ((l.uploaded b role frame).admitUpload i role).2.2
      (tryRender_draws b (l.admitted b role frame) ((i.markFresh role).countUploaded role))
    generalize hturn : tryRender b (l.admitted b role frame)
      ((i.markFresh role).countUploaded role) = turn at happen
    have hturn' := hturn
    unfold admitted uploaded at hturn'
    unfold admitUpload
    dsimp only
    rw [hturn']
    obtain ⟨loop, inbox, outcome, events⟩ := turn
    cases outcome <;> exact happen

/-! ### What a turn leaves as it was -/

section

variable {b : Backend σ} {l : Loop σ} {i : Inbox} {role : Role} {frame : Frame}

theorem draws_sameSlots {turn : Turn σ Attempt} (h : Draws b l i turn) :
    Inbox.SameSlots turn.inbox i := by
  cases h with
  | withhold | fail | crash => exact .rfl' i
  | present => exact (Inbox.SameSlots.countRendered _).trans (.clearFresh i)
  | skip => exact .countSkipped i

/-- A turn of the loop leaves the slots and the flag of its session alone. -/
theorem processes_sameSlots {turn : Turn σ (Option Attempt)}
    (h : Processes b l i role frame turn) : Inbox.SameSlots turn.inbox i := by
  cases h with
  | fail | crash => exact .rfl' i
  | reject => exact .countRejected i role
  | store _ _ hd =>
    exact (draws_sameSlots hd).trans
      ((Inbox.SameSlots.countUploaded _ role).trans (.markFresh i role))

theorem draws_stats {turn : Turn σ Attempt} (h : Draws b l i turn) (r : Role) :
    turn.inbox.stats.sources.get r = i.stats.sources.get r := by
  cases h with
  | withhold | fail | crash | skip => rfl
  | present =>
    change i.clearFresh.stats.sources.get r = _
    simp [Inbox.stats, Inbox.clearFresh]

/-- An upload is counted by the way it ends. A fault that ends the session is not counted. -/
def counted (outcome : Outcome Unit) (s : SourceStats) : SourceStats :=
  match outcome with
  | .done () => { s with uploaded := s.uploaded + 1 }
  | .failed fault => if fault.isFatal then s else { s with rejected := s.rejected + 1 }
  | .crashed _ => s

theorem processes_stats {turn : Turn σ (Option Attempt)}
    (h : Processes b l i role frame turn) (r : Role) :
    turn.inbox.stats.sources.get r =
      if role = r then counted (b.upload l.backend role frame).outcome (i.stats.sources.get role)
      else i.stats.sources.get r := by
  cases h with
  | fail ho hf =>
    rw [ho]
    simp only [counted, hf, if_true]
    split
    · rename_i hr; rw [hr]
    · rfl
  | reject ho hf =>
    rw [ho]
    simp only [counted, hf, Bool.false_eq_true, if_false]
    exact Inbox.stats_modifyStats i role r _
  | crash ho =>
    rw [ho]
    simp only [counted]
    split
    · rename_i hr; rw [hr]
    · rfl
  | store ho _ hd =>
    rw [ho]
    simp only [counted]
    have hfresh : ∀ r, (i.markFresh role).stats.sources.get r = i.stats.sources.get r := fun r =>
      Inbox.stats_modifyInlet i role r _ fun _ => rfl
    refine (draws_stats hd r).trans ?_
    refine (Inbox.stats_modifyStats (i.markFresh role) role r _).trans ?_
    rw [hfresh, hfresh]

/-- A turn crashes no later than its upload, and a fault that ends the session ends the turn. -/
theorem processes_outcome {turn : Turn σ (Option Attempt)}
    (h : Processes b l i role frame turn) :
    match turn.outcome with
    | .done _ => ∀ fault, (b.upload l.backend role frame).outcome = .failed fault →
        fault.isFatal = false
    | .failed _ => True
    | .crashed _ => ∀ fault, (b.upload l.backend role frame).outcome ≠ .failed fault := by
  cases h with
  | fail => trivial
  | reject ho hf =>
    intro fault ho'
    rw [ho] at ho'
    cases ho'
    exact hf
  | crash ho =>
    intro fault ho'
    rw [ho] at ho'
    cases ho'
  | @store turn ho =>
    cases hout : turn.outcome with
    | failed => trivial
    | done | crashed =>
      intro fault ho'
      rw [ho] at ho'
      cases ho'

theorem not_crashed_of_processes {turn : Turn σ (Option Attempt)}
    (h : Processes b l i role frame turn) (hc : ∀ crash, turn.outcome ≠ .crashed crash)
    (crash : Crash) : (b.upload l.backend role frame).outcome ≠ .crashed crash := by
  intro ho'
  cases h with
  | crash => exact hc _ rfl
  | fail ho | reject ho | store ho =>
    rw [ho] at ho'
    cases ho'

theorem drawing_milestones : (l.drawing b).filter Event.isMilestone = [] := by
  unfold drawing
  rw [List.filter_cons, List.filter_append, Event.filter_milestones_effects]
  rfl

theorem draws_milestones {turn : Turn σ Attempt} (h : Draws b l i turn) :
    turn.events.filter Event.isMilestone = [] := by
  cases h with
  | withhold => rfl
  | fail | crash => exact drawing_milestones
  | present =>
    rw [List.filter_append, drawing_milestones, Event.filter_milestones_notices]
    rfl
  | skip =>
    rw [List.filter_append, drawing_milestones]
    rfl

/-- A turn of the loop brings one upload to its end. -/
theorem processes_milestones {turn : Turn σ (Option Attempt)}
    (h : Processes b l i role frame turn) :
    turn.events.filter Event.isMilestone =
      [.uploaded role (b.upload l.backend role frame).outcome] := by
  have hup : (l.uploading b role frame).filter Event.isMilestone =
      [.uploaded role (b.upload l.backend role frame).outcome] := by
    unfold uploading
    rw [List.filter_append, Event.filter_milestones_effects]
    rfl
  cases h with
  | fail | crash => exact hup
  | reject =>
    rw [List.filter_append, hup]
    rfl
  | store _ _ hd =>
    rw [List.filter_append, List.filter_append, hup, Event.filter_milestones_notices,
      draws_milestones hd]
    rfl

end

end Loop

end PictureInPicture
