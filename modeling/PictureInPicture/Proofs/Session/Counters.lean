-- How far the counters of a session get. A step of a course counts each thing once at most, so no
-- counter comes to its largest number before as many steps were taken, and the counters may be
-- taken for numbers without an end.
import PictureInPicture.Proofs.Session.Story

namespace PictureInPicture

variable {σ : Type} {b : Backend σ} {k : Nat}

/-! ## Bounds of counters -/

/-- No counter of a source is above `k`. -/
structure SourceStats.AtMost (s : SourceStats) (k : Nat) : Prop where
  uploaded : s.uploaded ≤ k
  dropped : s.dropped ≤ k
  rejected : s.rejected ≤ k

/-- No counter of a session is above `k`. -/
structure Stats.AtMost (s : Stats) (k : Nat) : Prop where
  source : ∀ r, (s.sources.get r).AtMost k
  rendered : s.rendered ≤ k
  skipped : s.skipped ≤ k

theorem SourceStats.AtMost.mono {s : SourceStats} {m : Nat} (h : s.AtMost k) (hkm : k ≤ m) :
    s.AtMost m :=
  ⟨Nat.le_trans h.uploaded hkm, Nat.le_trans h.dropped hkm, Nat.le_trans h.rejected hkm⟩

theorem Stats.AtMost.mono {s : Stats} {m : Nat} (h : s.AtMost k) (hkm : k ≤ m) : s.AtMost m :=
  ⟨fun r => (h.source r).mono hkm, Nat.le_trans h.rendered hkm, Nat.le_trans h.skipped hkm⟩

namespace Inbox

variable {i : Inbox}

theorem atMost_ofConfig (config : Config Float32) : (ofConfig config).stats.AtMost k where
  source r := by cases r <;> exact ⟨Nat.zero_le k, Nat.zero_le k, Nat.zero_le k⟩
  rendered := Nat.zero_le k
  skipped := Nat.zero_le k

/-- A counter of a source that is counted up. -/
theorem atMost_modifyStats (h : i.stats.AtMost k) (r : Role) {g : SourceStats → SourceStats}
    (hg : ∀ s : SourceStats, s.AtMost k → (g s).AtMost (k + 1)) :
    (i.modifyStats r g).stats.AtMost (k + 1) where
  source r' := by
    rw [stats_modifyStats]
    split
    · exact hg _ (h.source r)
    · exact (h.source r').mono (Nat.le_succ k)
  rendered := Nat.le_succ_of_le h.rendered
  skipped := Nat.le_succ_of_le h.skipped

theorem atMost_countRejected (h : i.stats.AtMost k) (r : Role) :
    (i.countRejected r).stats.AtMost (k + 1) :=
  atMost_modifyStats h r fun _ hs =>
    ⟨Nat.le_succ_of_le hs.uploaded, Nat.le_succ_of_le hs.dropped, Nat.succ_le_succ hs.rejected⟩

theorem atMost_countDropped (h : i.stats.AtMost k) (r : Role) :
    (i.countDropped r).stats.AtMost (k + 1) :=
  atMost_modifyStats h r fun _ hs =>
    ⟨Nat.le_succ_of_le hs.uploaded, Nat.succ_le_succ hs.dropped, Nat.le_succ_of_le hs.rejected⟩

/-- What leaves the counters of the sources as they were, and counts no composite. -/
theorem atMost_same {j : Inbox} (h : i.stats.AtMost k)
    (hsources : ∀ r, j.stats.sources.get r = i.stats.sources.get r)
    (hrendered : j.rendered = i.rendered) (hskipped : j.skipped = i.skipped) :
    j.stats.AtMost (k + 1) where
  source r := hsources r ▸ (h.source r).mono (Nat.le_succ k)
  rendered := Nat.le_succ_of_le (Nat.le_trans (Nat.le_of_eq hrendered) h.rendered)
  skipped := Nat.le_succ_of_le (Nat.le_trans (Nat.le_of_eq hskipped) h.skipped)

end Inbox

namespace Loop

variable {l : Loop σ} {i : Inbox} {role : Role} {frame : Frame}

/-- A turn draws one composite at most. -/
theorem processes_composites {turn : Turn σ (Option Attempt)}
    (h : Processes b l i role frame turn) :
    turn.inbox.rendered ≤ i.rendered + 1 ∧ turn.inbox.skipped ≤ i.skipped + 1 := by
  cases h with
  | fail | reject | crash => exact ⟨Nat.le_succ _, Nat.le_succ _⟩
  | store _ _ hd =>
    cases hd with
    | withhold | fail | crash => exact ⟨Nat.le_succ _, Nat.le_succ _⟩
    | present => exact ⟨Nat.le_refl _, Nat.le_succ _⟩
    | skip => exact ⟨Nat.le_succ _, Nat.le_refl _⟩

theorem atMost_counted {s : SourceStats} (h : s.AtMost k) (outcome : Outcome Unit) :
    (counted outcome s).AtMost (k + 1) := by
  cases outcome with
  | done =>
    exact ⟨Nat.succ_le_succ h.uploaded, Nat.le_succ_of_le h.dropped, Nat.le_succ_of_le h.rejected⟩
  | crashed => exact h.mono (Nat.le_succ k)
  | failed fault =>
    unfold counted
    dsimp only
    split
    · exact h.mono (Nat.le_succ k)
    · exact ⟨Nat.le_succ_of_le h.uploaded, Nat.le_succ_of_le h.dropped,
        Nat.succ_le_succ h.rejected⟩

theorem atMost_process (h : i.stats.AtMost k) :
    (l.process b i role frame).inbox.stats.AtMost (k + 1) := by
  have hturn := process_processes b l i role frame
  obtain ⟨hrendered, hskipped⟩ := processes_composites hturn
  refine ⟨fun r => ?_, Nat.le_trans hrendered (Nat.succ_le_succ h.rendered),
    Nat.le_trans hskipped (Nat.succ_le_succ h.skipped)⟩
  rw [processes_stats hturn]
  split
  · exact atMost_counted (h.source role) _
  · exact (h.source r).mono (Nat.le_succ k)

end Loop

namespace World

/-! ## Steps -/

/-- No counter of any session is above `k`. -/
def CountsTo (w : World σ) (k : Nat) : Prop :=
  ∀ n i, w.inbox? n = some i → i.stats.AtMost k

variable {w w' : World σ}

theorem countsTo_new : (new σ).CountsTo k := by
  intro n i hi
  cases (show none = some i from hi)

theorem CountsTo.succ (h : w.CountsTo k) : w.CountsTo (k + 1) := fun n i hi =>
  (h n i hi).mono (Nat.le_succ k)

theorem countsTo_modifyInbox (h : w.CountsTo k) {n : Nat} {f : Inbox → Inbox}
    (hf : ∀ i, i.stats.AtMost k → (f i).stats.AtMost (k + 1)) :
    (w.modifyInbox n f).CountsTo (k + 1) := by
  intro m i hi
  rw [inbox?_modifyInbox] at hi
  split at hi
  · obtain ⟨j, hj, rfl⟩ := Option.map_eq_some_iff.mp hi
    exact hf j (h m j hj)
  · exact h.succ m i hi

/-- A session whose frames were taken away. -/
theorem countsTo_clearSlots (h : w.CountsTo k) (n : Nat) :
    (w.modifyInbox n .clearSlots).CountsTo (k + 1) :=
  countsTo_modifyInbox h fun i hi => Inbox.atMost_same hi (Inbox.stats_clearSlots i) rfl rfl

theorem countsTo_works {events : List Event} (h : Works b w w' events) (hw : w.CountsTo k) :
    w'.CountsTo (k + 1) := by
  cases h with
  | rest | serve | decline | collapse | ignore | heed | halt | shutdown | miss | lose =>
    exact hw.succ
  | discard | release | report => exact countsTo_clearSlots hw _
  | reach => exact countsTo_modifyInbox hw fun i hi =>
      Inbox.atMost_same hi (Inbox.stats_withdraw i _) rfl rfl
  | finish _ hi | fail _ hi | crash _ hi =>
    exact countsTo_modifyInbox hw fun _ _ => Loop.atMost_process (hw _ _ hi)

theorem countsTo_start (h : w.CountsTo k) (config : Config Float32) {w' : World σ}
    (hw' : w'.inboxes = w.inboxes ++ [.ofConfig config]) : w'.CountsTo (k + 1) := by
  intro n i hi
  have hmem : i ∈ w'.inboxes := List.mem_of_getElem? hi
  rw [hw', List.mem_append, List.mem_singleton] at hmem
  rcases hmem with hold | rfl
  · obtain ⟨m, hm⟩ := List.getElem?_of_mem hold
    exact h.succ m i hm
  · exact Inbox.atMost_ofConfig config

end World

namespace Course

variable {c c' : Course σ}

theorem countsTo_manages (h : Manages c c') (hc : c.world.CountsTo k) :
    c'.world.CountsTo (k + 1) := by
  cases h with
  | refuseStart | leave | loseStart | failStart | grant | close | depart => exact hc.succ
  | startUnheard | start => exact World.countsTo_start hc _ rfl
  | raise => exact World.countsTo_modifyInbox hc fun _ hi => hi.mono (Nat.le_succ k)
  | askStop | askEnd =>
    intro n i hi
    unfold World.inbox? at hi
    rw [inboxes_post] at hi
    exact hc.succ n i hi

/-- A step of a course counts up by one at most. -/
theorem countsTo_moves (h : Moves b c c') (hc : c.world.CountsTo k) :
    c'.world.CountsTo (k + 1) := by
  cases h with
  | turnAway | approach | accept | confirm | overtake | tell | unheard => exact hc.succ
  | refuse => exact World.countsTo_modifyInbox hc fun _ hi => Inbox.atMost_countRejected hi _
  | replace => exact World.countsTo_modifyInbox hc fun _ hi => Inbox.atMost_countDropped hi _
  | park => exact World.countsTo_modifyInbox hc fun i hi =>
      Inbox.atMost_same hi (Inbox.stats_park i _ · _) rfl rfl
  | withdraw => exact World.countsTo_modifyInbox hc fun i hi =>
      Inbox.atMost_same hi (Inbox.stats_withdraw i _) rfl rfl
  | work h => exact World.countsTo_works h hc
  | owner h => exact countsTo_manages h hc

theorem countsTo_run (b : Backend σ) (acts : List (Act σ)) :
    (run b acts).world.CountsTo acts.length := by
  induction acts using List.reverseRecOn with
  | nil => exact World.countsTo_new
  | append_singleton acts act ih =>
    rw [run_append, List.length_append, List.length_singleton]
    rcases step_moves b (run b acts) act with hsame | hmoves
    · rw [hsame]
      exact ih.succ
    · exact countsTo_moves hmoves ih

/-- Whatever owner, producers and backends do, no counter of any session gets past the largest
number that it shows in a course of no more steps than that. -/
theorem counters_do_not_start_again (b : Backend σ) (acts : List (Act σ))
    (hfew : acts.length ≤ Stats.lastCount) {n : Nat} {i : Inbox}
    (hi : (run b acts).world.inbox? n = some i) : i.stats.AtMost Stats.lastCount :=
  (countsTo_run b acts n i hi).mono hfew

end Course

end PictureInPicture
