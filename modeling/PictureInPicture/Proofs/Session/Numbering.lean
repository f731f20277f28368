-- What becomes of the uploads of a session, and how its composites are numbered. Every upload is
-- held back or drawn, and the composites are numbered from zero in the order in which the backend
-- was asked for them.
import Mathlib.Algebra.Group.Nat.Defs
import PictureInPicture.Proofs.Session.Record

namespace PictureInPicture

variable {σ : Type} {b : Backend σ}

/-! ## Composites -/

namespace Outcome

/-- The composite was handed to the output. -/
def isPresented : Outcome Presentation → Bool
  | done .presented => true
  | _ => false

/-- The output could not take the composite. -/
def isSkipped : Outcome Presentation → Bool
  | done .skipped => true
  | _ => false

/-- The gate held a frame back that was uploaded. -/
def isWithheld : Outcome (Option Attempt) → Bool
  | done (some .withheld) => true
  | _ => false

theorem presented_or_skipped {o : Outcome Presentation} (h : o.isDone = true) :
    o.isPresented.toNat + o.isSkipped.toNat = 1 := by
  cases o with
  | done presentation => cases presentation <;> rfl
  | failed | crashed => cases h

theorem not_lost_of_done {o : Outcome Presentation} (h : o.isDone = true) :
    o.isFailed = false ∧ o.isCrashed = false := by
  cases o with
  | done => exact ⟨rfl, rfl⟩
  | failed | crashed => cases h

end Outcome

namespace Event

/-- The stamp of a composite that the backend is asked for. -/
def stamp? : Event → Option Stamp
  | call (.render _ stamp) => some stamp
  | _ => none

/-- What the backend says of a composite. -/
def composite? : Event → Option (Stamp × Outcome Presentation)
  | rendered stamp outcome => some (stamp, outcome)
  | _ => none

/-- An upload went well. -/
def isStored : Event → Bool
  | uploaded _ (.done ()) => true
  | _ => false

end Event

/-- The stamps of the composites that a backend was asked for, in their order. -/
def stamps (events : List Event) : List Stamp := events.filterMap Event.stamp?

/-- What a backend said of its composites, in their order. -/
def composites (events : List Event) : List (Stamp × Outcome Presentation) :=
  events.filterMap Event.composite?

/-- The stamp of the composite with a number. The numbers stop at the last one. -/
def Clock.numbered (times : Nat → Nat) (k : Nat) : Stamp :=
  ⟨times (min k Clock.lastIndex), min k Clock.lastIndex⟩

/-- A clock numbers the composites it is asked for one after the other. -/
theorem Clock.samples_eq (times : Nat → Nat) (k n : Nat) :
    (⟨times, min k lastIndex⟩ : Clock).samples n = (List.range' k n).map (numbered times) := by
  induction n generalizing k with
  | zero => rfl
  | succ n ih =>
    have hnext : min (min k lastIndex + 1) lastIndex = min (k + 1) lastIndex := by omega
    rw [List.range'_succ, List.map_cons, ← ih (k + 1), ← hnext]
    rfl

/-- The stamps of a clock are in order if its times are. -/
theorem Clock.inOrder_samples {times : Nat → Nat} (h : ∀ j k, j ≤ k → times j ≤ times k)
    (n : Nat) : Stamp.inOrder ((start times).samples n) = true := by
  have hsamples : ∀ k, Stamp.inOrder ((List.range' k n).map (numbered times)) = true := by
    intro k
    induction n generalizing k with
    | zero => rfl
    | succ n ih =>
      cases n with
      | zero => rfl
      | succ n =>
        have hstep : times (min k lastIndex) ≤ times (min (k + 1) lastIndex) := h _ _ (by omega)
        have hrest := ih (k + 1)
        rw [List.range'_succ, List.map_cons] at hrest
        rw [List.range'_succ, List.range'_succ, List.map_cons, List.map_cons, Stamp.inOrder,
          Bool.and_eq_true, decide_eq_true_eq]
        exact ⟨hstep, hrest⟩
  have hstart : (start times).samples n = (List.range' 0 n).map (numbered times) :=
    samples_eq times 0 n
  rw [hstart]
  exact hsamples 0

section

variable {events more : List Event}

theorem stamps_append : stamps (events ++ more) = stamps events ++ stamps more :=
  List.filterMap_append

theorem composites_append : composites (events ++ more) = composites events ++ composites more :=
  List.filterMap_append

/-- What is no part of a turn is no composite and no upload. -/
theorem untold_of_not_turn (h : ∀ e ∈ events, e.isTurn = false) :
    stamps events = [] ∧ composites events = [] ∧ events.countP Event.isStored = 0 := by
  have untold : ∀ {e : Event}, e.isTurn = false →
      e.stamp? = none ∧ e.composite? = none ∧ e.isStored = false := by
    intro e he
    cases e with
    | call call => cases call <;> first | exact ⟨rfl, rfl, rfl⟩ | cases he
    | uploaded | rendered => cases he
    | create | effect | drop => exact ⟨rfl, rfl, rfl⟩
  refine ⟨List.filterMap_eq_nil_iff.mpr fun e he => (untold (h e he)).1,
    List.filterMap_eq_nil_iff.mpr fun e he => (untold (h e he)).2.1,
    List.countP_eq_zero.mpr fun e he => ?_⟩
  rw [(untold (h e he)).2.2]
  exact Bool.false_ne_true

/-- The record counts the uploads and the composites. -/
theorem counts_entered (events : List Event) :
    let r := events.foldl Record.enter .blank
    r.uploaded.primary + r.uploaded.secondary = events.countP Event.isStored ∧
      r.rendered = (composites events).countP (·.2.isPresented) ∧
      r.skipped = (composites events).countP (·.2.isSkipped) := by
  induction events using List.reverseRecOn with
  | nil => exact ⟨rfl, rfl, rfl⟩
  | append_singleton events e ih =>
    obtain ⟨huploaded, hrendered, hskipped⟩ := ih
    rw [List.foldl_append, List.foldl_cons, List.foldl_nil, composites_append, List.countP_append,
      List.countP_append, List.countP_append, ← huploaded, ← hrendered, ← hskipped]
    generalize events.foldl Record.enter .blank = r
    cases e with
    | uploaded role outcome =>
      cases outcome with
      | done =>
        refine ⟨?_, rfl, rfl⟩
        cases role
        · exact Nat.add_right_comm _ _ _
        · exact (Nat.add_assoc r.uploaded.primary r.uploaded.secondary 1).symm
      | failed | crashed => exact ⟨rfl, rfl, rfl⟩
    | rendered stamp outcome =>
      cases outcome with
      | done presentation => cases presentation <;> exact ⟨rfl, rfl, rfl⟩
      | failed | crashed => exact ⟨rfl, rfl, rfl⟩
    | call call => cases call <;> exact ⟨rfl, rfl, rfl⟩
    | create | effect | drop => exact ⟨rfl, rfl, rfl⟩

/-! ## Every call is answered before the next -/

/-- Whenever a composite is asked for, all composites before it were answered, in their order. -/
def Answered (events : List Event) : Prop :=
  ∀ pre ops stamp post, events = pre ++ .call (.render ops stamp) :: post →
    stamps pre = (composites pre).map Prod.fst

theorem answered_of_none (h : stamps events = []) : Answered events := by
  rintro pre ops stamp post rfl
  have hmem : stamp ∈ stamps (pre ++ .call (.render ops stamp) :: post) :=
    List.mem_filterMap.mpr ⟨_, List.mem_append_right _ List.mem_cons_self, rfl⟩
  rw [h] at hmem
  cases hmem

theorem answered_append (h : Answered events) (hall : stamps events = (composites events).map Prod.fst)
    (h' : Answered more) : Answered (events ++ more) := by
  intro pre ops stamp post hsplit
  rcases split_append hsplit with ⟨post', hevents, _⟩ | ⟨pre', rfl, hmore⟩
  · exact h pre ops stamp post' hevents
  · rw [stamps_append, composites_append, List.map_append, hall, h' pre' ops stamp post hmore]

end

/-! ## A turn of the loop -/

namespace Loop

/-- What comes of a turn of the loop. A frame that is stored is held back or leads to one
composite, and the outcome of the turn is that of its composite. -/
structure Yields (l : Loop σ) (turn : Turn σ (Option Attempt)) : Prop where
  stored : turn.events.countP Event.isStored =
    turn.outcome.isWithheld.toNat + (composites turn.events).length
  stamps : stamps turn.events = (composites turn.events).map Prod.fst
  answered : Answered turn.events
  drawn : composites turn.events = [] ∧ turn.loop.clock = l.clock ∨
    ∃ o, composites turn.events = [(l.clock.sample.1, o)] ∧
      turn.loop.clock = l.clock.sample.2 ∧ turn.outcome.isFailed = o.isFailed ∧
      turn.outcome.isCrashed = o.isCrashed

section

variable {l : Loop σ} {i : Inbox} {role : Role} {frame : Frame}

theorem told_drawing :
    stamps (l.drawing b) = [l.clock.sample.1] ∧
      composites (l.drawing b) = [(l.clock.sample.1, (l.nextReply b).outcome)] ∧
      (l.drawing b).countP Event.isStored = 0 := by
  obtain ⟨hstamps, hcomposites, hstored⟩ :=
    untold_of_not_turn (Event.not_turn_effects (l.nextReply b).effects)
  refine ⟨?_, ?_, ?_⟩
  · change l.clock.sample.1 :: stamps (_ ++ _) = _
    rw [stamps_append, hstamps]
    rfl
  · change composites (_ ++ _) = _
    rw [composites_append, hcomposites]
    rfl
  · change List.countP _ (_ :: (_ ++ _)) = 0
    rw [List.countP_cons, List.countP_append, hstored]
    rfl

theorem told_uploading (b : Backend σ) (l : Loop σ) (role : Role) (frame : Frame) :
    stamps (l.uploading b role frame) = [] ∧ composites (l.uploading b role frame) = [] ∧
      (l.uploading b role frame).countP Event.isStored =
        (b.upload l.backend role frame).outcome.isDone.toNat := by
  obtain ⟨hstamps, hcomposites, hstored⟩ :=
    untold_of_not_turn (Event.not_turn_effects (b.upload l.backend role frame).effects)
  unfold uploading
  rw [stamps_append, composites_append, List.countP_append, hstamps, hcomposites, hstored]
  cases (b.upload l.backend role frame).outcome <;> exact ⟨rfl, rfl, rfl⟩

/-- Drawing stores nothing. It ends with a composite, unless the frame is held back. -/
theorem draws_told {turn : Turn σ Attempt} (h : Draws b l i turn) :
    turn.events.countP Event.isStored = 0 ∧
      (turn.outcome = .done .withheld ∧ stamps turn.events = [] ∧ composites turn.events = [] ∧
          turn.loop.clock = l.clock ∨
        ∃ o, turn.outcome ≠ .done .withheld ∧ turn.outcome.isFailed = o.isFailed ∧
          turn.outcome.isCrashed = o.isCrashed ∧ stamps turn.events = [l.clock.sample.1] ∧
          composites turn.events = [(l.clock.sample.1, o)] ∧
          turn.loop.clock = l.clock.sample.2) := by
  obtain ⟨hstamps, hcomposites, hstored⟩ := told_drawing (b := b) (l := l)
  have aside : ∀ more : List Event, (∀ e ∈ more, e.isTurn = false) →
      stamps (l.drawing b ++ more) = [l.clock.sample.1] ∧
        composites (l.drawing b ++ more) = [(l.clock.sample.1, (l.nextReply b).outcome)] ∧
        (l.drawing b ++ more).countP Event.isStored = 0 := by
    intro more hmore
    obtain ⟨hstamps', hcomposites', hstored'⟩ := untold_of_not_turn hmore
    rw [stamps_append, composites_append, List.countP_append, hstamps, hcomposites, hstored,
      hstamps', hcomposites', hstored']
    exact ⟨rfl, rfl, rfl⟩
  cases h with
  | withhold => exact ⟨rfl, .inl ⟨rfl, rfl, rfl, rfl⟩⟩
  | present _ ho notices =>
    obtain ⟨hstamps, hcomposites, hstored⟩ := aside _ (Event.not_turn_notices notices)
    exact ⟨hstored, .inr ⟨_, nofun, by rw [ho]; rfl, by rw [ho]; rfl, hstamps, hcomposites, rfl⟩⟩
  | skip _ ho n =>
    obtain ⟨hstamps, hcomposites, hstored⟩ := aside [.notice n] (List.forall_mem_singleton.mpr rfl)
    exact ⟨hstored, .inr ⟨_, nofun, by rw [ho]; rfl, by rw [ho]; rfl, hstamps, hcomposites, rfl⟩⟩
  | fail _ ho | crash _ ho =>
    exact ⟨hstored, .inr ⟨_, nofun, by rw [ho]; rfl, by rw [ho]; rfl, hstamps, hcomposites, rfl⟩⟩

theorem answered_draws {turn : Turn σ Attempt} (h : Draws b l i turn) :
    Answered turn.events := by
  have drawn : ∀ more : List Event, stamps more = [] → Answered (l.drawing b ++ more) := by
    intro more hmore pre ops stamp post hsplit
    cases pre with
    | nil => rfl
    | cons e pre =>
      -- The call at the head is the only one.
      obtain ⟨rfl, _⟩ := List.cons.inj hsplit
      have hone : stamps (l.drawing b ++ more) = [l.clock.sample.1] := by
        rw [stamps_append, told_drawing.1, hmore]
        rfl
      rw [hsplit, stamps_append] at hone
      exact absurd (List.append_eq_nil_iff.mp (List.cons.inj hone).2).2 (List.cons_ne_nil _ _)
  cases h with
  | withhold => exact answered_of_none rfl
  | present _ _ notices => exact drawn _ (untold_of_not_turn (Event.not_turn_notices notices)).1
  | skip => exact drawn _ rfl
  | fail | crash =>
    have hnone := drawn [] rfl
    rw [List.append_nil] at hnone
    exact hnone

theorem processes_yields {turn : Turn σ (Option Attempt)} (h : Processes b l i role frame turn) :
    Yields l turn := by
  obtain ⟨hstamps, hcomposites, hstored⟩ := told_uploading b l role frame
  cases h with
  | fail ho | crash ho =>
    rw [ho] at hstored
    exact ⟨by rw [hstored, hcomposites]; rfl, by rw [hstamps, hcomposites]; rfl,
      answered_of_none hstamps, .inl ⟨hcomposites, rfl⟩⟩
  | @reject fault ho _ n =>
    rw [ho] at hstored
    have hs : stamps (l.uploading b role frame ++ [.notice n]) = [] := by
      rw [stamps_append, hstamps]
      rfl
    have hc : composites (l.uploading b role frame ++ [.notice n]) = [] := by
      rw [composites_append, hcomposites]
      rfl
    refine ⟨?_, by rw [hs, hc]; rfl, answered_of_none hs, .inl ⟨hc, rfl⟩⟩
    rw [List.countP_append, hstored, hc]
    rfl
  | @store turn ho notices hd =>
    rw [ho] at hstored
    obtain ⟨hstamps', hcomposites', hstored'⟩ :=
      untold_of_not_turn (Event.not_turn_notices notices)
    have before : stamps (l.uploading b role frame ++ notices.map Event.notice) = [] ∧
        composites (l.uploading b role frame ++ notices.map Event.notice) = [] ∧
        (l.uploading b role frame ++ notices.map Event.notice).countP Event.isStored = 1 := by
      rw [stamps_append, composites_append, List.countP_append, hstamps, hcomposites, hstored,
        hstamps', hcomposites', hstored']
      exact ⟨rfl, rfl, rfl⟩
    generalize l.uploading b role frame ++ notices.map Event.notice = uploading at before
    obtain ⟨hs, hc, hone⟩ := before
    obtain ⟨hnone, hdrawn⟩ := draws_told hd
    have hanswered : Answered (uploading ++ turn.events) :=
      answered_append (answered_of_none hs) (by rw [hs, hc]; rfl) (answered_draws hd)
    have hs' : stamps (uploading ++ turn.events) = stamps turn.events := by
      rw [stamps_append, hs, List.nil_append]
    have hc' : composites (uploading ++ turn.events) = composites turn.events := by
      rw [composites_append, hc, List.nil_append]
    have hcount : (uploading ++ turn.events).countP Event.isStored = 1 := by
      rw [List.countP_append, hone, hnone]
    rcases hdrawn with ⟨ho, hs, hc, hl⟩ | ⟨o, hw, hf, hx, hs, hc, hl⟩
    · exact ⟨by rw [hcount, hc', hc, ho]; rfl, by rw [hs', hc', hs, hc]; rfl, hanswered,
        .inl ⟨hc'.trans hc, hl⟩⟩
    · have hwithheld : (turn.outcome.map some).isWithheld = false := by
        cases ho : turn.outcome with
        | done attempt => cases attempt <;> first | rfl | exact absurd ho hw
        | failed | crashed => rfl
      refine ⟨?_, by rw [hs', hc', hs, hc]; rfl, hanswered, .inr ⟨o, hc'.trans hc, hl, ?_, ?_⟩⟩
      · rw [hcount, hc', hc, hwithheld]
        rfl
      · rw [← hf]
        cases turn.outcome <;> rfl
      · rw [← hx]
        cases turn.outcome <;> rfl

end

/-! ### Rounds -/

/-- The composites of a loop are numbered from zero. -/
theorem stamps_rounds {start l : Loop σ} {taken : List (Role × Frame)} {events : List Event}
    {times : Nat → Nat} (h : Rounds b start taken events l) (hstart : start.clock = .start times) :
    l.clock = ⟨times, min (stamps events).length Clock.lastIndex⟩ ∧
      stamps events = (List.range (stamps events).length).map (Clock.numbered times) := by
  induction h with
  | rest => exact ⟨hstart, rfl⟩
  | @turn taken events l role frame turn i _ hp ih =>
    obtain ⟨hclock, hstamps⟩ := ih
    have hmore : stamps (events ++ .call (.upload role frame) :: turn.events) =
        stamps events ++ stamps turn.events := stamps_append
    rw [hmore]
    have hyield := processes_yields hp
    rw [hyield.stamps]
    rcases hyield.drawn with ⟨hc, hl⟩ | ⟨o, hc, hl, _⟩
    · rw [hc, List.map_nil, List.append_nil, hl]
      exact ⟨hclock, hstamps⟩
    · rw [hc, hl, hclock, List.length_append, List.map_singleton, List.length_singleton]
      refine ⟨?_, ?_⟩
      · change Clock.mk times (min (min _ _ + 1) _) = _
        congr 1
        omega
      · rw [List.range_succ, List.map_append, ← hstamps]
        rfl

end Loop

namespace World

theorem listening_works {w w' : World σ} {events : List Event} (h : Works b w w' events)
    (hl : w.listening = false) : w'.listening = false := by
  cases h with
  | rest => exact hl
  | collapse | shutdown | crash => rfl
  | serve _ ht | decline _ ht | ignore ht | discard ht | heed ht | halt ht | release _ ht
  | miss ht | reach ht | lose ht | finish ht | fail ht | report ht =>
    simp [listening, ht] at hl

end World

namespace Course

variable {c : Course σ} {n : Nat}

/-! ## The ends of uploads -/

/-- How the turn of the loop ended, if the act is the end of an upload of the session. -/
def ending? (b : Backend σ) (n : Nat) (c : Course σ) : Act σ → Option (Outcome (Option Attempt))
  | .work =>
    match c.world.thread, c.world.inbox? n with
    | .uploading active role frame, some i =>
      if active.session = n then some (active.loop.process b i role frame).outcome else none
    | _, _ => none
  | _ => none

def endingsFrom (b : Backend σ) (n : Nat) :
    Course σ → List (Act σ) → List (Outcome (Option Attempt))
  | _, [] => []
  | c, act :: acts => (c.ending? b n act).toList ++ endingsFrom b n (c.step b act) acts

/-- How the turns of the loop of a session ended, in their order. -/
def endings (b : Backend σ) (n : Nat) (acts : List (Act σ)) : List (Outcome (Option Attempt)) :=
  endingsFrom b n (new σ) acts

theorem endings_append (acts : List (Act σ)) (act : Act σ) :
    endings b n (acts ++ [act]) =
      endings b n acts ++ ((run b acts).ending? b n act).toList := by
  have from_any : ∀ c : Course σ, endingsFrom b n c (acts ++ [act]) =
      endingsFrom b n c acts ++ ((acts.foldl (step b) c).ending? b n act).toList := by
    induction acts with
    | nil =>
      intro c
      exact List.append_nil _
    | cons first acts ih =>
      intro c
      simp only [List.cons_append, endingsFrom, List.foldl_cons, ih, List.append_assoc]
  exact from_any (new σ)

/-- A session that has failed stays so, and the thread stays away from it. -/
theorem failed_step (act : Act σ) (hb : c.world.busy? ≠ some n)
    (hs : c.world.isStopping n = true) :
    (c.step b act).world.busy? ≠ some n ∧ (c.step b act).world.isStopping n = true := by
  have hs' : (c.step b act).world.isStopping n = true := by
    rcases step_moves b c act with hsame | hm
    · rw [hsame]
      exact hs
    · exact isStopping_moves hm hs
  refine ⟨?_, hs'⟩
  by_cases hact : act.isWork = true
  · cases act with
    | work => exact World.busy?_works (World.work_works b c.world) hs hb
    | _ => cases hact
  · have hthread := (aside_step (b := b) (c := c) (Bool.eq_false_iff.mpr hact)).1
    unfold World.busy? at hb ⊢
    rw [hthread]
    exact hb

/-- A thread that has ended does not begin again. -/
theorem ended_step (act : Act σ) (hl : c.world.listening = false) :
    (c.step b act).world.listening = false := by
  by_cases hact : act.isWork = true
  · cases act with
    | work => exact World.listening_works (World.work_works b c.world) hl
    | _ => cases hact
  · rw [World.listening_of_thread (aside_step (Bool.eq_false_iff.mpr hact)).1]
    exact hl

/-- The reckoning of a session: each upload that went well was held back or led to a composite,
the calls were answered one by one, and only the last composite may have failed. -/
structure Reckoned (b : Backend σ) (acts : List (Act σ)) (n : Nat) (c : Course σ)
    (work : List Event) : Prop where
  stored : work.countP Event.isStored =
    (endings b n acts).countP Outcome.isWithheld + (composites work).length
  stamps : stamps work = (composites work).map Prod.fst
  answered : Answered work
  settled : ∀ x ∈ (composites work).dropLast, x.2.isDone = true
  failed : ∀ x ∈ composites work, x.2.isFailed = true →
    c.world.busy? ≠ some n ∧ c.world.isStopping n = true
  crashed : ∀ x ∈ composites work, x.2.isCrashed = true → c.world.listening = false

/-- A step in which the thread does something for the session. -/
theorem reckoned_next {acts : List (Act σ)} {act : Act σ} {work new : List Event} {withheld : Bool}
    (h : Reckoned b acts n (run b acts) work)
    (hends : (endings b n (acts ++ [act])).countP Outcome.isWithheld =
      (endings b n acts).countP Outcome.isWithheld + withheld.toNat)
    (hstored : new.countP Event.isStored = withheld.toNat + (composites new).length)
    (hstamps : stamps new = (composites new).map Prod.fst) (hanswered : Answered new)
    (hlast : composites new = [] ∨
      (∃ x, composites new = [x]) ∧ ∀ x ∈ composites work, x.2.isDone = true)
    (hfailed : ∀ x ∈ composites new, x.2.isFailed = true →
      ((run b acts).step b act).world.busy? ≠ some n ∧
        ((run b acts).step b act).world.isStopping n = true)
    (hcrashed : ∀ x ∈ composites new, x.2.isCrashed = true →
      ((run b acts).step b act).world.listening = false) :
    Reckoned b (acts ++ [act]) n ((run b acts).step b act) (work ++ new) where
  stored := by
    rw [List.countP_append, hstored, hends, composites_append, List.length_append, h.stored]
    omega
  stamps := by rw [stamps_append, composites_append, List.map_append, hstamps, h.stamps]
  answered := answered_append h.answered h.stamps hanswered
  settled := by
    rw [composites_append]
    rcases hlast with hnone | ⟨⟨x, hone⟩, hdone⟩
    · rw [hnone, List.append_nil]
      exact h.settled
    · rw [hone, List.dropLast_concat]
      exact hdone
  failed := by
    intro x hx hf
    rw [composites_append] at hx
    rcases List.mem_append.mp hx with hx | hx
    · obtain ⟨hb, hs⟩ := h.failed x hx hf
      exact failed_step act hb hs
    · exact hfailed x hx hf
  crashed := by
    intro x hx hc
    rw [composites_append] at hx
    rcases List.mem_append.mp hx with hx | hx
    · exact ended_step act (h.crashed x hx hc)
    · exact hcrashed x hx hc

/-- A step in which the loop of the session makes no turn. -/
theorem reckoned_aside {acts : List (Act σ)} {act : Act σ} {work new : List Event}
    (h : Reckoned b acts n (run b acts) work) (hend : (run b acts).ending? b n act = none)
    (hquiet : ∀ e ∈ new, e.isTurn = false) :
    Reckoned b (acts ++ [act]) n ((run b acts).step b act) (work ++ new) := by
  obtain ⟨hstamps, hcomposites, hstored⟩ := untold_of_not_turn hquiet
  have hends : (endings b n (acts ++ [act])).countP Outcome.isWithheld =
      (endings b n acts).countP Outcome.isWithheld + false.toNat := by
    rw [endings_append, hend]
    simp
  apply reckoned_next h hends _ _ (answered_of_none hstamps) (.inl hcomposites)
  · rw [hcomposites]
    exact List.forall_mem_nil _
  · rw [hcomposites]
    exact List.forall_mem_nil _
  · rw [hstored, hcomposites]
    rfl
  · rw [hstamps, hcomposites]
    rfl

/-- While the thread is inside an upload of the session, all of its composites are done. -/
theorem done_of_uploading {acts : List (Act σ)} {work : List Event} {active : Active σ}
    {role : Role} {frame : Frame} (h : Reckoned b acts active.session c work)
    (ht : c.world.thread = .uploading active role frame) :
    ∀ x ∈ composites work, x.2.isDone = true := by
  rintro ⟨stamp, outcome⟩ hx
  cases outcome with
  | done => rfl
  | failed =>
    have hb := (h.failed _ hx rfl).1
    simp [World.busy?, ht] at hb
  | crashed =>
    have hl := h.crashed _ hx rfl
    simp [World.listening, ht] at hl

/-- The end of an upload of the session. -/
theorem reckoned_turn {acts : List (Act σ)} {work new : List Event} {active : Active σ}
    {role : Role} {frame : Frame} {i : Inbox}
    (h : Reckoned b acts active.session (run b acts) work)
    (hclose : World.Closes b (run b acts).world ((run b acts).world.work b).1 new active role
      frame i) :
    Reckoned b (acts ++ [.work]) active.session ((run b acts).step b .work) (work ++ new) := by
  have hend : (run b acts).ending? b active.session .work =
      some (active.loop.process b i role frame).outcome := by
    simp [ending?, hclose.thread, hclose.inbox]
  have hfailed := hclose.failed
  have hcrashed := hclose.crashed
  obtain ⟨closing, rfl, hquiet⟩ := hclose.events
  have hyield := Loop.processes_yields (Loop.process_processes b active.loop i role frame)
  generalize active.loop.process b i role frame = turn at hend hfailed hcrashed hyield
  obtain ⟨hstamps, hcomposites, hstored⟩ := untold_of_not_turn hquiet
  have hs : stamps (turn.events ++ closing) = stamps turn.events := by
    rw [stamps_append, hstamps, List.append_nil]
  have hc : composites (turn.events ++ closing) = composites turn.events := by
    rw [composites_append, hcomposites, List.append_nil]
  have hends : (endings b active.session (acts ++ [.work])).countP Outcome.isWithheld =
      (endings b active.session acts).countP Outcome.isWithheld + turn.outcome.isWithheld.toNat := by
    rw [endings_append, hend, List.countP_append]
    cases hw : turn.outcome.isWithheld <;> simp [hw]
  apply reckoned_next h hends
  · rw [List.countP_append, hstored, Nat.add_zero, hc]
    exact hyield.stored
  · rw [hs, hc]
    exact hyield.stamps
  · exact answered_append hyield.answered hyield.stamps (answered_of_none hstamps)
  · rw [hc]
    rcases hyield.drawn with ⟨hnone, _⟩ | ⟨o, hone, _⟩
    · exact .inl hnone
    · exact .inr ⟨⟨_, hone⟩, done_of_uploading h hclose.thread⟩
  · intro x hx hf
    rw [hc] at hx
    rcases hyield.drawn with ⟨hnone, _⟩ | ⟨o, hone, _, hsame, _⟩
    · rw [hnone] at hx
      cases hx
    · rw [hone] at hx
      rw [List.mem_singleton.mp hx] at hf
      refine ⟨fun hbusy => ?_, hfailed (hsame.trans hf)⟩
      exact Option.some_ne_none _ (hbusy.symm.trans hclose.away)
  · intro x hx hf
    rw [hc] at hx
    rcases hyield.drawn with ⟨hnone, _⟩ | ⟨o, hone, _, _, hsame⟩
    · rw [hnone] at hx
      cases hx
    · rw [hone] at hx
      rw [List.mem_singleton.mp hx] at hf
      exact hcrashed (hsame.trans hf)

theorem reckoned_step {acts : List (Act σ)} {act : Act σ}
    (h : Reckoned b acts n (run b acts) (workFor n (run b acts).story)) :
    Reckoned b (acts ++ [act]) n ((run b acts).step b act)
      (workFor n ((run b acts).step b act).story) := by
  by_cases hact : act.isWork = true
  swap
  · have hnone : (run b acts).ending? b n act = none := by
      cases act <;> first | rfl | exact absurd rfl hact
    have hsame := (aside_step (b := b) (c := run b acts) (Bool.eq_false_iff.mpr hact)).2 n
    rw [hsame, ← List.append_nil (workFor n (run b acts).story)]
    exact reckoned_aside h hnone (List.forall_mem_nil _)
  cases act with
  | work =>
    have hwork : workFor n ((run b acts).step b .work).story = workFor n (run b acts).story ++
        if (run b acts).world.focus = some n then ((run b acts).world.work b).2 else [] := by
      rw [← workFor_worked]
      exact workFor_append _ _ _
    rw [hwork]
    by_cases hturn : ∃ active role frame i, (run b acts).world.thread = .uploading active role frame ∧
        active.session = n ∧ (run b acts).world.inbox? n = some i
    · obtain ⟨active, role, frame, i, ht, rfl, hi⟩ := hturn
      have hclose := World.closes_work (b := b) ht hi
      rw [if_pos (World.focus_of_closes hclose)]
      exact reckoned_turn h hclose
    · have hnone : (run b acts).ending? b n .work = none := by
        unfold ending?
        dsimp only
        split
        · rename_i active role frame i ht hi
          exact if_neg fun hn => hturn ⟨active, role, frame, i, ht, hn, hi⟩
        · rfl
      refine reckoned_aside h hnone fun e he => ?_
      rcases World.works_turn (World.work_works b (run b acts).world) with
        ⟨active, role, frame, i, hclose⟩ | ⟨hquiet, _⟩
      · rw [World.focus_of_closes hclose] at he
        split at he
        · rename_i hn
          obtain rfl := Option.some.inj hn
          exact absurd ⟨active, role, frame, i, hclose.thread, rfl, hclose.inbox⟩ hturn
        · cases he
      · split at he
        · exact hquiet e he
        · cases he
  | _ => cases hact

theorem reckoned_run (b : Backend σ) (acts : List (Act σ)) (n : Nat) :
    Reckoned b acts n (run b acts) (workFor n (run b acts).story) := by
  induction acts using List.reverseRecOn with
  | nil =>
    exact ⟨rfl, rfl, answered_of_none rfl, List.forall_mem_nil _, List.forall_mem_nil _,
      List.forall_mem_nil _⟩
  | append_singleton acts act ih =>
    rw [run_append]
    exact reckoned_step ih

/-- The composites of a session are numbered from zero. -/
theorem stamps_run (b : Backend σ) (acts : List (Act σ)) {n : Nat} {t : Terms σ}
    {times : Nat → Nat} (ht : (run b acts).terms[n]? = some t) (hclock : t.clock = .start times) :
    let work := workFor n (run b acts).story
    stamps work = (List.range (stamps work).length).map (Clock.numbered times) := by
  intro work
  have hrounds : stamps (work.filter Event.isRound) = stamps work :=
    Event.filterMap_rounds (fun e he => by cases e <;> first | rfl | cases he) work
  have hopening : stamps t.opening = [] := by
    refine List.filterMap_eq_nil_iff.mpr fun e he => ?_
    obtain ⟨effect, _, rfl⟩ := List.mem_map.mp (List.mem_filter.mp he).1
    rfl
  rw [← hrounds]
  rcases rounds_of_run b acts ht with ⟨_, _, hwork | hwork⟩ |
    ⟨backend, taken, events, l, _, hr, _, hwork⟩
  · rw [hwork]
    rfl
  · rw [hwork, hopening]
    rfl
  · have hevents : stamps (events.filter Event.isRound) = stamps events :=
      Event.filterMap_rounds (fun e he => by cases e <;> first | rfl | cases he) events
    have hhand : stamps (((run b acts).world.inHand n).map fun x => .call (.upload x.1 x.2)) = [] := by
      refine List.filterMap_eq_nil_iff.mpr fun e he => ?_
      obtain ⟨x, _, rfl⟩ := List.mem_map.mp he
      rfl
    rw [hwork, stamps_append, stamps_append, hopening, hevents, hhand, List.nil_append,
      List.append_nil]
    exact (Loop.stamps_rounds hr hclock).2

/-! ## Counting composites -/

section

variable {l : List (Stamp × Outcome Presentation)}

/-- A composite that is done was presented or skipped. -/
theorem length_of_done (h : ∀ x ∈ l, x.2.isDone = true) :
    l.length = l.countP (·.2.isPresented) + l.countP (·.2.isSkipped) := by
  induction l with
  | nil => rfl
  | cons x l ih =>
    have hone := Outcome.presented_or_skipped (h x List.mem_cons_self)
    have hrest := ih fun y hy => h y (List.mem_cons_of_mem _ hy)
    rw [List.length_cons, List.countP_cons, List.countP_cons, hrest]
    cases hp : x.2.isPresented <;> cases hs : x.2.isSkipped <;> simp_all <;> omega

/-- Of composites of which only the last one may have failed, each was presented or skipped, or is
the one that has failed. -/
theorem length_of_settled (h : ∀ x ∈ l.dropLast, x.2.isDone = true) :
    l.length = l.countP (·.2.isPresented) + l.countP (·.2.isSkipped) +
      (l.any (·.2.isFailed)).toNat + (l.any (·.2.isCrashed)).toNat := by
  rcases List.eq_nil_or_concat l with rfl | ⟨init, ⟨stamp, outcome⟩, rfl⟩
  · rfl
  · rw [List.concat_eq_append] at h ⊢
    rw [List.dropLast_concat] at h
    have hfailed : init.any (·.2.isFailed) = false := by
      rw [List.any_eq_false]
      intro y hy
      rw [(Outcome.not_lost_of_done (h y hy)).1]
      exact Bool.false_ne_true
    have hcrashed : init.any (·.2.isCrashed) = false := by
      rw [List.any_eq_false]
      intro y hy
      rw [(Outcome.not_lost_of_done (h y hy)).2]
      exact Bool.false_ne_true
    rw [List.length_append, List.countP_append, List.countP_append, List.any_append,
      List.any_append, hfailed, hcrashed, length_of_done h]
    cases outcome with
    | done presentation =>
      cases presentation
      · exact Nat.add_right_comm _ _ _
      · exact Nat.add_assoc _ _ _
    | failed | crashed => rfl

/-- Composites with numbers in their order: each one stands at its number. -/
theorem index_of_numbered {m : Nat} (h : l.map (·.1.index) = List.range m) {k : Nat}
    {x : Stamp × Outcome Presentation} (hx : l[k]? = some x) : x.1.index = k := by
  have hk : (l.map (·.1.index))[k]? = some x.1.index := by
    rw [List.getElem?_map, hx]
    rfl
  rw [h] at hk
  obtain ⟨hlt, heq⟩ := List.getElem?_eq_some_iff.mp hk
  rw [← heq, List.getElem_range]

theorem pairwise_numbered {m : Nat} (h : l.map (·.1.index) = List.range m)
    (p : Stamp × Outcome Presentation → Bool) :
    ((l.filter p).map (·.1.index)).Pairwise (· < ·) := by
  have hsub : ((l.filter p).map (·.1.index)).Sublist (List.range m) :=
    h ▸ List.filter_sublist.map _
  exact List.pairwise_lt_range.sublist hsub

/-- What is missing between the numbers of presented composites was skipped. -/
theorem skipped_between {m : Nat} (h : l.map (·.1.index) = List.range m)
    (hdone : ∀ x ∈ l.dropLast, x.2.isDone = true) {k later : Nat}
    (hlater : later ∈ (l.filter (·.2.isPresented)).map (·.1.index)) (hk : k < later) :
    k ∉ (l.filter (·.2.isPresented)).map (·.1.index) ↔
      k ∈ (l.filter (·.2.isSkipped)).map (·.1.index) := by
  have found : ∀ (p : Stamp × Outcome Presentation → Bool) {j : Nat},
      j ∈ (l.filter p).map (·.1.index) ↔ ∃ x, l[j]? = some x ∧ p x = true := by
    intro p j
    constructor
    · intro hj
      obtain ⟨x, hx, rfl⟩ := List.mem_map.mp hj
      obtain ⟨hmem, hpx⟩ := List.mem_filter.mp hx
      obtain ⟨j, hx⟩ := List.mem_iff_getElem?.mp hmem
      rw [index_of_numbered h hx]
      exact ⟨x, hx, hpx⟩
    · rintro ⟨x, hx, hpx⟩
      rw [← index_of_numbered h hx]
      exact List.mem_map.mpr ⟨x, List.mem_filter.mpr ⟨List.mem_of_getElem? hx, hpx⟩, rfl⟩
  -- The composite with the number is not the last one.
  obtain ⟨y, hy, _⟩ := (found _).mp hlater
  have hlt := (List.getElem?_eq_some_iff.mp hy).1
  obtain ⟨x, hx⟩ : ∃ x, l[k]? = some x := ⟨_, List.getElem?_eq_getElem (Nat.lt_trans hk hlt)⟩
  have hinit : x ∈ l.dropLast := by
    apply List.mem_of_getElem? (i := k)
    rw [List.getElem?_dropLast, if_pos (by omega), hx]
  have hone := Outcome.presented_or_skipped (hdone x hinit)
  rw [found, found]
  constructor
  · intro hnot
    refine ⟨x, hx, ?_⟩
    cases hs : x.2.isSkipped with
    | true => rfl
    | false =>
      refine absurd ⟨x, hx, ?_⟩ hnot
      cases hp : x.2.isPresented with
      | true => rfl
      | false =>
        rw [hs, hp] at hone
        cases hone
  · rintro ⟨z, hz, hskipped⟩ ⟨z', hz', hpresented⟩
    obtain rfl := Option.some.inj (hz.symm.trans hx)
    obtain rfl := Option.some.inj (hz'.symm.trans hx)
    rw [hskipped, hpresented] at hone
    cases hone

end

/-- When a composite is asked for, all composites before it were presented or skipped. -/
theorem composites_before {acts : List (Act σ)} {work pre post : List Event}
    {ops : List (DrawOp Float32)} {stamp : Stamp} (h : Reckoned b acts n c work)
    (hwork : work = pre ++ .call (.render ops stamp) :: post) :
    (stamps pre).length = (composites pre).countP (·.2.isPresented) +
      (composites pre).countP (·.2.isSkipped) := by
  have hrest : composites (.call (.render ops stamp) :: post) ≠ [] := by
    intro hnone
    have hall := h.stamps
    rw [hwork, stamps_append, composites_append, List.map_append, hnone,
      h.answered pre ops stamp post hwork] at hall
    have hlength := congrArg List.length hall
    rw [List.length_append] at hlength
    change _ + (_ + 1) = _ at hlength
    simp at hlength
  have hdone : ∀ x ∈ composites pre, x.2.isDone = true := by
    intro x hx
    apply h.settled
    rw [hwork, composites_append, List.dropLast_append_of_ne_nil hrest]
    exact List.mem_append_left _ hx
  rw [h.answered pre ops stamp post hwork, List.length_map]
  exact length_of_done hdone

/-- Uploads, counters and stamps of a session agree in every state, whatever a backend answers.
Each upload that went well was held back, or led to a composite that was presented or skipped; if a
composite failed or crashed, it was the last. The composites are stamped with the numbers from zero
in the order in which the backend was asked for them, and each one with the number of those that
were presented or skipped before. So the numbers of the presented ones increase, and what is missing
between them was skipped. -/
theorem composites_are_numbered_without_gaps (b : Backend σ) (acts : List (Act σ)) {n : Nat}
    {t : Terms σ} {times : Nat → Nat} {i : Inbox} (ht : (run b acts).terms[n]? = some t)
    (hclock : t.clock = .start times) (hi : (run b acts).world.inbox? n = some i)
    (hfew : (stamps (workFor n (run b acts).story)).length < 2 ^ 64) :
    let c := run b acts
    let work := workFor n c.story
    let drawn := composites work
    let presented := (drawn.filter (·.2.isPresented)).map (·.1.index)
    let skipped := (drawn.filter (·.2.isSkipped)).map (·.1.index)
    i.rendered = presented.length ∧ i.skipped = skipped.length ∧
    (i.stats.sources.get .primary).uploaded + (i.stats.sources.get .secondary).uploaded =
      (endings b n acts).countP Outcome.isWithheld + i.rendered + i.skipped +
        (drawn.any (·.2.isFailed)).toNat + (drawn.any (·.2.isCrashed)).toNat ∧
    (c.world.listening = true → drawn.any (·.2.isCrashed) = false) ∧
    stamps work = (List.range (stamps work).length).map (fun k => ⟨times k, k⟩) ∧
    (∀ pre ops stamp post, work = pre ++ .call (.render ops stamp) :: post →
      stamp.index = (stamps pre).length ∧
      stamp.index = (composites pre).countP (·.2.isPresented) +
        (composites pre).countP (·.2.isSkipped)) ∧
    presented.Pairwise (· < ·) ∧
    ∀ k later, later ∈ presented → k < later → (k ∉ presented ↔ k ∈ skipped) := by
  intro c work drawn presented skipped
  have hreckoned : Reckoned b acts n c work := reckoned_run b acts n
  have hrecord : i.record = work.foldl Record.enter .blank := record_run b acts hi
  obtain ⟨huploaded, hrendered, hskipped⟩ := counts_entered work
  rw [← hrecord] at huploaded hrendered hskipped
  have hstamps : stamps work = (List.range (stamps work).length).map (fun k => ⟨times k, k⟩) := by
    refine (stamps_run b acts ht hclock).trans (List.map_congr_left fun k hk => ?_)
    have hlt := List.mem_range.mp hk
    have hmin : min k Clock.lastIndex = k := by
      unfold Clock.lastIndex
      omega
    unfold Clock.numbered
    rw [hmin]
  have hnumbered : drawn.map (·.1.index) = List.range (stamps work).length := by
    have hfst : drawn.map (·.1.index) = (stamps work).map (·.index) := by
      rw [hreckoned.stamps, List.map_map]
      rfl
    rw [hfst, hstamps, List.map_map, List.length_map, List.length_range]
    exact List.map_id _
  have hsome : i.rendered = presented.length := by
    rw [List.length_map, ← List.countP_eq_length_filter]
    exact hrendered
  have hnone : i.skipped = skipped.length := by
    rw [List.length_map, ← List.countP_eq_length_filter]
    exact hskipped
  refine ⟨hsome, hnone, ?_, fun hl => ?_, hstamps, fun pre ops stamp post hwork => ?_,
    pairwise_numbered hnumbered _, fun k later => skipped_between hnumbered hreckoned.settled⟩
  · have huploads : (i.stats.sources.get .primary).uploaded +
        (i.stats.sources.get .secondary).uploaded = work.countP Event.isStored := huploaded
    have hpresented : i.rendered = drawn.countP (·.2.isPresented) := hrendered
    have hskips : i.skipped = drawn.countP (·.2.isSkipped) := hskipped
    have hdrawn := length_of_settled hreckoned.settled
    rw [huploads, hreckoned.stored, hpresented, hskips, hdrawn]
    simp only [Nat.add_assoc]
    rfl
  · rw [List.any_eq_false]
    intro x hx hcrash
    rw [hreckoned.crashed x hx hcrash] at hl
    cases hl
  · have hbefore := composites_before hreckoned hwork
    have hindex : stamp.index = (stamps pre).length := by
      have hat : (stamps work)[(stamps pre).length]? = some stamp := by
        rw [hwork, stamps_append, List.getElem?_append_right (Nat.le_refl _), Nat.sub_self]
        rfl
      rw [hstamps, List.getElem?_map] at hat
      obtain ⟨k, hk, rfl⟩ := Option.map_eq_some_iff.mp hat
      obtain ⟨_, rfl⟩ := List.getElem?_eq_some_iff.mp hk
      exact List.getElem_range _
    exact ⟨hindex, hindex.trans hbefore⟩

/-- An overlay waits for its background, which comes with the first composite. The output does not
take the second composite, and the next one has number two. -/
theorem a_skipped_composite_leaves_a_gap :
    let b : Backend Nat :=
      { upload s _ _ := ⟨s, .done (), []⟩
        render s _ _ := ⟨s + 1, .done (if s = 1 then .skipped else .presented), []⟩ }
    let submit : Nat → Role → List (Act Nat) := fun k role =>
      [.approach 0 role (pixel 9 9 9), .advance k, .advance k, .advance k, .advance k,
        .work, .work, .work]
    let acts := [.start onePixel (fun _ => ⟨.done 0, []⟩) (.steady 7), .work, .proceed] ++
      submit 0 .primary ++ submit 1 .secondary ++ submit 2 .primary ++ submit 3 .primary
    let work := workFor 0 (run b acts).story
    let drawn := composites work
    (run b acts).terms[0]? = some ⟨onePixel, fun _ => ⟨.done 0, []⟩, .start (· * 7)⟩ ∧
      ((run b acts).world.inbox? 0).isSome = true ∧ (stamps work).length = 3 ∧
      (endings b 0 acts).countP Outcome.isWithheld = 1 ∧
      (drawn.filter (·.2.isPresented)).map (·.1.index) = [0, 2] ∧
      1 ∈ (drawn.filter (·.2.isSkipped)).map (·.1.index) := by
  intro b submit acts work drawn
  have ht : (run b acts).terms[0]? = some ⟨onePixel, fun _ => ⟨.done 0, []⟩, .start (· * 7)⟩ :=
    term_run (term_of_start onePixel _ (.start (· * 7)) (by decide +kernel)) acts.tail
  have hi : ((run b acts).world.inbox? 0).isSome = true := by decide +kernel
  have hthree : (stamps work).length = 3 := by decide +kernel
  have hpresented : (drawn.filter (·.2.isPresented)).map (·.1.index) = [0, 2] := by decide +kernel
  refine ⟨ht, hi, hthree, by decide +kernel, hpresented, ?_⟩
  obtain ⟨i, hi⟩ := Option.isSome_iff_exists.mp hi
  have hfew : (stamps (workFor 0 (run b acts).story)).length < 2 ^ 64 := by
    change (stamps work).length < 2 ^ 64
    rw [hthree]
    decide
  have hgap := (composites_are_numbered_without_gaps b acts ht rfl hi hfew).2.2.2.2.2.2.2
  have hmem : 2 ∈ (drawn.filter (·.2.isPresented)).map (·.1.index) := by
    rw [hpresented]
    decide
  have hnot : 1 ∉ (drawn.filter (·.2.isPresented)).map (·.1.index) := by
    rw [hpresented]
    decide
  exact (hgap 1 2 hmem Nat.one_lt_two).mp hnot

end Course

end PictureInPicture
