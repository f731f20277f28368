-- Submissions that are left out of a course, each with a frame that its session does not admit.
-- All that becomes of one is that it waits for its check and is refused then, unless it came too
-- late for that.
import Mathlib.Data.Nat.Count
import PictureInPicture.Proofs.Session.Inert

namespace PictureInPicture

variable {σ : Type} {b : Backend σ}

/-! ## Submissions past their check -/

namespace Errand.Stage

/-- The frame has passed the check. -/
def isPast : Stage → Bool
  | checking | done (.error _) | done (.ok .ignored) => false
  | _ => true

/-- The frame is to be checked. -/
def isChecking : Stage → Bool
  | checking => true
  | _ => false

/-- The frame was refused. -/
def isRefused : Stage → Bool
  | done (.error _) => true
  | _ => false

end Errand.Stage

namespace Course

variable {c c' : Course σ}

/-- The check of a session admits what the session was asked for with. -/
theorem admits_iff (hc : Vetted c) {n : Nat} {i : Inbox} (hi : c.world.inbox? n = some i)
    (role : Role) (frame : Frame) :
    c.Admits n role frame ↔ frame.validateFor role (i.declared.get role) = .ok () := by
  have hdeclared := hc.declared n
  rw [World.declared?_eq hi] at hdeclared
  obtain ⟨t, ht, hsources⟩ := Option.map_eq_some_iff.mp hdeclared.symm
  rw [← hsources]
  constructor
  · rintro ⟨t', ht', hvalid⟩
    rw [ht] at ht'
    cases ht'
    exact hvalid
  · exact fun hvalid => ⟨t, ht, hvalid⟩

/-- Only a frame that its session admits comes past the check. -/
theorem admits_of_past (b : Backend σ) (acts : List (Act σ)) :
    ∀ e ∈ (run b acts).errands, e.stage.isPast = true →
      (run b acts).Admits e.session e.role e.frame := by
  induction acts using List.reverseRecOn with
  | nil => exact List.forall_mem_nil _
  | append_singleton acts act ih =>
    rw [run_append]
    rcases step_moves b (run b acts) act with hsame | hm
    · rw [hsame]
      exact ih
    intro e he hp
    refine admits_moves hm ?_
    have onward : ∀ {k : Nat} {e₁ : Errand} {stage : Errand.Stage},
        e ∈ (run b acts).errands.set k { e₁ with stage } →
        (stage.isPast = true → (run b acts).Admits e₁.session e₁.role e₁.frame) →
        (run b acts).Admits e.session e.role e.frame := by
      intro k e₁ stage hmem hstage
      rcases List.mem_or_eq_of_mem_set hmem with hold | rfl
      · exact ih e hold hp
      · exact hstage hp
    have past : ∀ {k : Nat} {e₁ : Errand}, (run b acts).errands[k]? = some e₁ →
        e₁.stage.isPast = true → (run b acts).Admits e₁.session e₁.role e₁.frame :=
      fun hk => ih _ (List.mem_of_getElem? hk)
    generalize (run b acts).step b act = next at he hm
    cases hm with
    | accept _ hi _ hv => exact onward he fun _ => (admits_iff (vetted_run b acts) hi _ _).mpr hv
    | refuse | withdraw => exact onward he fun hpast => by cases hpast
    | park hk _ hs | confirm hk hs | overtake hk hs | replace hk _ hs | tell hk hs
    | unheard hk hs => exact onward he fun _ => past hk (by rw [hs]; rfl)
    | turnAway | approach =>
      rcases List.mem_append.mp he with hold | hlast
      · exact ih e hold hp
      · rw [List.mem_singleton.mp hlast] at hp
        cases hp
    | work => exact ih e he hp
    | owner hm =>
      rw [(spares_manages hm).errands] at he
      exact ih e he hp

/-! ## Leaving submissions out -/

/-- The things that happen in a course one by one, each with the course that it finds. -/
def scenes (b : Backend σ) : Course σ → List (Act σ) → List (Course σ × Act σ)
  | _, [] => []
  | c, act :: acts => (c, act) :: scenes b (c.step b act) acts

theorem scenes_concat (c : Course σ) (acts : List (Act σ)) (act : Act σ) :
    scenes b c (acts ++ [act]) = scenes b c acts ++ [(acts.foldl (step b) c, act)] := by
  induction acts generalizing c with
  | nil => rfl
  | cons first acts ih => exact congrArg _ (ih (c.step b first))

theorem scenes_run (acts : List (Act σ)) (act : Act σ) :
    scenes b (new σ) (acts ++ [act]) = scenes b (new σ) acts ++ [(run b acts, act)] :=
  scenes_concat (new σ) acts act

end Course

/-- The place of a submission among those that are not left out. -/
def place (stray : Nat → Bool) (k : Nat) : Nat := Nat.count (stray · = false) k

/-- What is left of a thing that happens, when the stray submissions are left out. The others
move up. -/
def Act.without (stray : Nat → Bool) (c : Course σ) : Act σ → Option (Act σ)
  | approach session role frame =>
    if session ∈ c.endpoints ∧ stray c.errands.length = true then none
    else some (approach session role frame)
  | advance k => if stray k then none else some (advance (place stray k))
  | act => some act

/-- A submission begins or goes on. -/
def Act.isSubmission : Act σ → Bool
  | approach .. | advance _ => true
  | _ => false

/-- A stray submission to a source of a session begins, and the session takes frames. -/
def Act.begins (stray : Nat → Bool) (n : Nat) (role : Role) (c : Course σ) : Act σ → Bool
  | approach session r _ =>
    stray c.errands.length && session = n && r = role &&
      (session ∈ c.endpoints && !c.world.isStopping session)
  | _ => false

namespace Course

/-- What happens when the stray submissions are left out. -/
def without (b : Backend σ) (stray : Nat → Bool) (acts : List (Act σ)) : List (Act σ) :=
  (scenes b (new σ) acts).filterMap fun scene => scene.2.without stray scene.1

/-- How many stray submissions to a source were begun while its session took frames. -/
def begun (b : Backend σ) (stray : Nat → Bool) (n : Nat) (role : Role) (acts : List (Act σ)) :
    Nat :=
  (scenes b (new σ) acts).countP fun scene => scene.2.begins stray n role scene.1

theorem run_without (stray : Nat → Bool) (acts : List (Act σ)) (act : Act σ) :
    run b (without b stray (acts ++ [act])) =
      (act.without stray (run b acts)).elim (run b (without b stray acts))
        (step b (run b (without b stray acts))) := by
  have hwithout : without b stray (acts ++ [act]) =
      without b stray acts ++ (act.without stray (run b acts)).toList := by
    unfold without
    rw [scenes_run, List.filterMap_append]
    cases h : act.without stray (run b acts) <;> simp [h]
  rw [hwithout]
  cases act.without stray (run b acts) with
  | none => rw [Option.toList_none, List.append_nil]; rfl
  | some act => exact run_append b _ act

theorem begun_concat (stray : Nat → Bool) (n : Nat) (role : Role) (acts : List (Act σ))
    (act : Act σ) :
    begun b stray n role (acts ++ [act]) =
      begun b stray n role acts + (act.begins stray n role (run b acts)).toNat := by
  unfold begun
  rw [scenes_run, List.countP_append]
  cases h : act.begins stray n role (run b acts) <;> simp [h]

/-! ## Counting submissions -/

/-- How many of the stray submissions to a source of a session are at such a stage. -/
def strays (stray : Nat → Bool) (n : Nat) (role : Role) (p : Errand.Stage → Bool)
    (errands : List Errand) : Nat :=
  (errands.mapIdx fun k e => stray k && e.session = n && e.role = role && p e.stage).count true

section

variable {stray : Nat → Bool} {n : Nat} {role : Role} {p : Errand.Stage → Bool}
  {errands : List Errand} {k : Nat} {e : Errand}

theorem strays_concat (e : Errand) :
    strays stray n role p (errands ++ [e]) =
      strays stray n role p errands +
        (stray errands.length && e.session = n && e.role = role && p e.stage).toNat := by
  unfold strays
  rw [List.mapIdx_concat, List.count_append]
  cases (stray errands.length && e.session = n && e.role = role && p e.stage) <;> rfl

theorem strays_unknown (h : ∀ e ∈ errands, e.session ≠ n) : strays stray n role p errands = 0 := by
  unfold strays
  rw [List.count_eq_zero, List.mem_mapIdx]
  rintro ⟨k, hk, heq⟩
  simp [h _ (List.getElem_mem hk)] at heq

theorem count_true_set {l : List Bool} {k : Nat} (hk : k < l.length) (x : Bool) :
    (l.set k x).count true + l[k].toNat = l.count true + x.toNat := by
  rw [List.count_set hk]
  cases h : l[k] with
  | false => cases x <;> rfl
  | true =>
    have hpos : 0 < l.count true := List.count_pos_iff.mpr (h ▸ List.getElem_mem hk)
    cases x <;> simp <;> omega

variable (stray n role p) in
/-- A submission that comes to another stage is counted at that stage. -/
theorem strays_set (he : errands[k]? = some e) (stage : Errand.Stage) :
    strays stray n role p (errands.set k { e with stage }) +
        (stray k && e.session = n && e.role = role && p e.stage).toNat =
      strays stray n role p errands +
        (stray k && e.session = n && e.role = role && p stage).toNat := by
  obtain ⟨hlt, rfl⟩ := List.getElem?_eq_some_iff.mp he
  unfold strays
  have hcount := count_true_set (l := errands.mapIdx fun k e =>
    stray k && e.session = n && e.role = role && p e.stage) (k := k) (by simpa using hlt)
    (stray k && errands[k].session = n && errands[k].role = role && p stage)
  rw [List.getElem_mapIdx] at hcount
  rw [List.mapIdx_set]
  exact hcount

end

/-! ## What becomes of stray submissions -/

variable {c c' : Course σ}

/-- The stray submissions are among those with frames that their sessions do not admit. -/
def Malformed (c : Course σ) (stray : Nat → Bool) : Prop :=
  ∀ k e, c.errands[k]? = some e → stray k = true → ¬ c.Admits e.session e.role e.frame

theorem errands_advance (c : Course σ) (k : Nat) :
    (c.advance k).errands = c.errands ∨
      ∃ e stage, c.errands[k]? = some e ∧
        (c.advance k).errands = c.errands.set k { e with stage } := by
  unfold advance
  split
  · exact .inl rfl
  · rename_i e he
    split
    · exact .inl rfl
    · exact .inr ⟨e, _, he, rfl⟩

/-- Only submissions come and go on. -/
theorem errands_aside {act : Act σ} (h : act.isSubmission = false) :
    (c.step b act).errands = c.errands := by
  have owner : ∀ {next : Course σ}, next = c ∨ Manages c next → next.errands = c.errands := by
    rintro next (rfl | hm)
    · rfl
    · exact (spares_manages hm).errands
  cases act with
  | approach | advance => cases h
  | work => rfl
  | start config factory clock => exact owner (start_manages config factory clock)
  | stop => exact owner stop_manages
  | leave => exact owner leave_manages
  | proceed => exact owner proceed_manages

/-- A submission keeps its number. -/
theorem errand_step (act : Act σ) {k : Nat} {e : Errand} (he : c.errands[k]? = some e) :
    ∃ stage, (c.step b act).errands[k]? = some { e with stage } := by
  cases hk : act.isAdvance k with
  | false => exact ⟨e.stage, errands_step hk he⟩
  | true =>
    cases act with
    | advance j =>
      obtain rfl : j = k := by simpa [Act.isAdvance] using hk
      rcases errands_advance c j with hsame | ⟨e', stage, he', hset⟩
      · exact ⟨e.stage, (congrArg (·[j]?) hsame).trans he⟩
      · obtain rfl := Option.some.inj (he.symm.trans he')
        have hlt := (List.getElem?_eq_some_iff.mp he).1
        exact ⟨stage, (congrArg (·[j]?) hset).trans (List.getElem?_set_self hlt)⟩
    | _ => cases hk

theorem malformed_of_step {stray : Nat → Bool} {act : Act σ} (h : (c.step b act).Malformed stray) :
    c.Malformed stray := by
  intro k e he hk hadmits
  obtain ⟨stage, he'⟩ := errand_step (b := b) act he
  refine h k _ he' hk ?_
  rcases step_moves b c act with hsame | hm
  · rw [hsame]
    exact hadmits
  · exact admits_moves hm hadmits

section

variable {stray : Nat → Bool} {acts : List (Act σ)} {k : Nat} {e : Errand}

/-- A stray submission is refused when its frame is checked, and does nothing else. -/
theorem advance_of_stray (hm : (run b acts).Malformed stray) (hk : stray k = true) :
    (run b acts).advance k = run b acts ∨
      ∃ e fault, (run b acts).errands[k]? = some e ∧ e.stage = .checking ∧
        (run b acts).advance k =
          { (run b acts).onward k e (.done (.error fault)) with
            world := (run b acts).world.modifyInbox e.session (·.countRejected e.role) } := by
  cases he : (run b acts).errands[k]? with
  | none => exact .inl (by simp [advance, he])
  | some e =>
    have hstray := hm k e he hk
    have hmem := List.mem_of_getElem? he
    cases hs : e.stage with
    | checking =>
      obtain ⟨i, hi⟩ := inbox_of_endpoint (sound_run b acts)
        ((sound_run b acts).errand_endpoint e hmem)
      rw [admits_iff (vetted_run b acts) hi] at hstray
      cases hv : e.frame.validateFor e.role (i.declared.get e.role) with
      | ok => exact absurd hv hstray
      | error fault =>
        refine .inr ⟨e, fault, rfl, hs, ?_⟩
        unfold advance
        simp only [he, hi, Errand.next, hs, Inbox.inspect, hv, Bool.false_eq_true, if_false,
          World.setInbox_eq_modifyInbox (·.countRejected e.role) hi]
        rfl
    | done result => exact .inl (advance_done he hs)
    | _ => exact absurd (admits_of_past b acts e hmem (by rw [hs]; rfl)) hstray

theorem strays_advance {n : Nat} {role : Role} {p : Errand.Stage → Bool} (hk : stray k = false) :
    strays stray n role p (c.advance k).errands = strays stray n role p c.errands := by
  rcases errands_advance c k with hsame | ⟨e, stage, he, hset⟩
  · rw [hsame]
  · have hcount := strays_set stray n role p he stage
    rw [hset]
    simpa [hk] using hcount

/-- A stray submission that is refused waited for its check before. -/
theorem strays_refuse (n : Nat) (role : Role) {errands : List Errand} (he : errands[k]? = some e)
    (hk : stray k = true) (hs : e.stage = .checking) (fault : BufferFault) :
    strays stray n role Errand.Stage.isChecking
          (errands.set k { e with stage := .done (.error fault) }) +
        (e.session = n && e.role = role).toNat =
      strays stray n role Errand.Stage.isChecking errands ∧
    strays stray n role Errand.Stage.isRefused
        (errands.set k { e with stage := .done (.error fault) }) =
      strays stray n role Errand.Stage.isRefused errands +
        (e.session = n && e.role = role).toNat := by
  have hchecking := strays_set stray n role Errand.Stage.isChecking he (.done (.error fault))
  have hrefused := strays_set stray n role Errand.Stage.isRefused he (.done (.error fault))
  simp only [hk, hs, Errand.Stage.isChecking, Errand.Stage.isRefused, Bool.true_and, Bool.and_true,
    Bool.and_false, Bool.toNat_false, Nat.add_zero] at hchecking hrefused
  exact ⟨hchecking, hrefused⟩

/-- Every stray submission that was begun while its session took frames waits for its check, or
was refused. -/
theorem strays_run (hm : (run b acts).Malformed stray) (n : Nat) (role : Role) :
    strays stray n role Errand.Stage.isChecking (run b acts).errands +
        strays stray n role Errand.Stage.isRefused (run b acts).errands =
      begun b stray n role acts := by
  induction acts using List.reverseRecOn with
  | nil => rfl
  | append_singleton acts act ih =>
    rw [run_append] at hm
    have ih := ih (malformed_of_step hm)
    rw [begun_concat, run_append, ← ih]
    cases act with
    | approach m r frame =>
      unfold step approach Act.begins
      dsimp only
      by_cases hn : m ∈ (run b acts).endpoints
      · cases hs : (run b acts).world.isStopping m <;>
          simp only [hn, if_true, Bool.false_eq_true, if_false, strays_concat,
            Errand.Stage.isChecking, Errand.Stage.isRefused, decide_true, Bool.not_true,
            Bool.not_false, Bool.and_true, Bool.and_false, Bool.toNat_false, Nat.add_zero]
        omega
      · simp only [hn, if_false, decide_false, Bool.false_and, Bool.and_false, Bool.toNat_false,
          Nat.add_zero]
    | advance k =>
      change strays stray n role _ ((run b acts).advance k).errands +
        strays stray n role _ ((run b acts).advance k).errands = _
      cases hk : stray k with
      | false =>
        rw [strays_advance hk, strays_advance hk]
        rfl
      | true =>
        rcases advance_of_stray (malformed_of_step hm) hk with hstay | ⟨e, fault, he, hs, hrefuse⟩
        · rw [hstay]
          rfl
        · obtain ⟨hchecking, hrefused⟩ := strays_refuse n role he hk hs fault
          rw [hrefuse]
          change strays stray n role _ ((run b acts).errands.set k _) +
            strays stray n role _ ((run b acts).errands.set k _) = _
          rw [hrefused, ← hchecking]
          unfold Act.begins
          dsimp only
          rw [Bool.toNat_false]
          omega
    | _ =>
      rw [errands_aside rfl]
      rfl

end

end Course

end PictureInPicture
