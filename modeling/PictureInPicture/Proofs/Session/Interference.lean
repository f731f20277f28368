-- A frame that its session does not admit is counted as refused, and that is all that comes of
-- it. A course in which such submissions are made at any places is the course without them,
-- as everybody else sees it.
import PictureInPicture.Proofs.Session.Refusals
import PictureInPicture.Proofs.Session.Strays

namespace PictureInPicture

variable {σ : Type} {b : Backend σ}

/-- It is what a submission was answered. -/
def Happening.isAnswer : Happening → Bool
  | answered .. => true
  | _ => false

namespace Course

variable {c c' : Course σ} {stray : Nat → Bool} {acts : List (Act σ)} {k : Nat} {e : Errand}

/-! ## The course without the stray submissions -/

/-- Everything that is told, but what submissions are answered. -/
def tidings (story : List Happening) : List Happening := story.filter (!·.isAnswer)

/-- How many more frames of each session were refused on account of the stray submissions. -/
def excess (stray : Nat → Bool) (errands : List Errand) (n : Nat) : Both Nat where
  primary := strays stray n .primary Errand.Stage.isRefused errands
  secondary := strays stray n .secondary Errand.Stage.isRefused errands

theorem get_excess (stray : Nat → Bool) (errands : List Errand) (n : Nat) (role : Role) :
    (excess stray errands n).get role = strays stray n role Errand.Stage.isRefused errands := by
  cases role <;> rfl

/-- Two courses that differ only in the stray submissions of the second one. -/
structure Shadows (stray : Nat → Bool) (c c' : Course σ) : Prop where
  /-- The sessions are the same but for the frames that were refused, and so are the queue, the
  thread and the faults. -/
  world : c'.world = c.world.refusing (excess stray c'.errands)
  duty : c'.duty = c.duty
  endpoints : c'.endpoints = c.endpoints
  terms : c'.terms = c.terms
  told : c'.told = c.told
  /-- The thread has done the same in the same order: calls, their outcomes and effects. So have
  the submissions that put a frame into a slot, and the owner. -/
  tidings : tidings c'.story = tidings c.story
  length : c.errands.length = place stray c'.errands.length
  /-- The other submissions have come equally far, and have the same answers. -/
  errands : ∀ k, stray k = false → c.errands[place stray k]? = c'.errands[k]?

theorem place_inj {j k : Nat} (hj : stray j = false) (hk : stray k = false) :
    place stray j = place stray k ↔ j = k := by
  refine ⟨fun h => ?_, fun h => by rw [h]⟩
  exact Nat.count_injective (p := (stray · = false)) hj hk h

theorem shadows_new : Shadows stray (new σ) (new σ) where
  world := rfl
  duty := rfl
  endpoints := rfl
  terms := rfl
  told := rfl
  tidings := rfl
  length := rfl
  errands := fun _ _ => rfl

theorem getElem?_concat_ne {α : Type} {l : List α} {k : Nat} (hk : k ≠ l.length) (x : α) :
    (l ++ [x])[k]? = l[k]? := by
  rcases Nat.lt_or_gt_of_ne hk with hlt | hgt
  · exact List.getElem?_append_left hlt
  · rw [List.getElem?_eq_none (by simp; omega), List.getElem?_eq_none (Nat.le_of_lt hgt)]

theorem tidings_append {story new : List Happening} (h : ∀ x ∈ new, x.isAnswer = true) :
    Course.tidings (story ++ new) = Course.tidings story := by
  unfold Course.tidings
  have hnone : new.filter (!·.isAnswer) = [] := by
    rw [List.filter_eq_nil_iff]
    intro x hx
    rw [h x hx]
    exact Bool.false_ne_true
  rw [List.filter_append, hnone, List.append_nil]

theorem tidings_congr {story story' : List Happening}
    (h : Course.tidings story' = Course.tidings story) (new : List Happening) :
    Course.tidings (story' ++ new) = Course.tidings (story ++ new) := by
  unfold Course.tidings at h ⊢
  rw [List.filter_append, List.filter_append, h]

/-- What does not touch submissions happens in both courses. -/
theorem Shadows.follow (h : Shadows stray c c') {world : World σ} {duty : Duty}
    {endpoints : List Nat} {terms : List (Terms σ)} {told : List (Nat × Role)}
    {story story' : List Happening} (hs : Course.tidings story' = Course.tidings story) :
    Shadows stray { c with world, duty, endpoints, terms, told, story }
      { c' with
        world := world.refusing (excess stray c'.errands)
        duty, endpoints, terms, told
        story := story' } where
  world := rfl
  duty := rfl
  endpoints := rfl
  terms := rfl
  told := rfl
  tidings := hs
  length := h.length
  errands := h.errands

theorem excess_congr {errands errands' : List Errand}
    (h : ∀ n role, strays stray n role Errand.Stage.isRefused errands' =
      strays stray n role Errand.Stage.isRefused errands) :
    excess stray errands' = excess stray errands := by
  funext n
  unfold excess
  rw [h, h]

/-- A stray submission begins. -/
theorem Shadows.astray (h : Shadows stray c c') (hk : stray c'.errands.length = true)
    {e : Errand} (he : e.stage.isRefused = false) {story : List Happening}
    (hs : Course.tidings story = Course.tidings c'.story) :
    Shadows stray c { c' with errands := c'.errands ++ [e], story } where
  world := by
    rw [h.world, excess_congr fun n role => ?_]
    rw [strays_concat, he, Bool.and_false, Bool.toNat_false, Nat.add_zero]
  duty := h.duty
  endpoints := h.endpoints
  terms := h.terms
  told := h.told
  tidings := hs.trans h.tidings
  length := by
    rw [h.length, List.length_append, List.length_singleton]
    unfold place
    rw [Nat.count_succ, if_neg (by simp [hk]), Nat.add_zero]
  errands := fun k hkept => by
    have hne : k ≠ c'.errands.length := by
      rintro rfl
      rw [hk] at hkept
      cases hkept
    rw [getElem?_concat_ne hne]
    exact h.errands k hkept

/-- A stray submission is refused. -/
theorem Shadows.refuse (h : Shadows stray c c') (hk : stray k = true)
    (he : c'.errands[k]? = some e) (hs : e.stage = .checking) (fault : BufferFault) :
    Shadows stray c
      { c'.onward k e (.done (.error fault)) with
        world := c'.world.modifyInbox e.session (·.countRejected e.role) } where
  world := by
    rw [h.world]
    refine World.refusing_countRejected _ _ (Both.ext_get fun r => ?_) fun n hn =>
      Both.ext_get fun r => ?_
    · rw [Both.get_modify, get_excess, get_excess, get_excess, onward,
        (strays_refuse e.session r he hk hs fault).2]
      by_cases hr : e.role = r <;> simp [hr]
    · rw [get_excess, get_excess, onward, (strays_refuse n r he hk hs fault).2]
      simp [hn.symm]
  duty := h.duty
  endpoints := h.endpoints
  terms := h.terms
  told := h.told
  tidings := by
    refine (tidings_append ?_).trans h.tidings
    unfold Errand.tale
    rw [hs]
    exact List.forall_mem_singleton.mpr rfl
  length := by
    rw [h.length, onward, List.length_set]
  errands := fun j hj => by
    have hne : k ≠ j := by
      rintro rfl
      rw [hk] at hj
      cases hj
    rw [onward, List.getElem?_set_ne hne]
    exact h.errands j hj

/-- Another submission begins. -/
theorem Shadows.begin (h : Shadows stray c c') (hk : stray c'.errands.length = false)
    (e : Errand) {story story' : List Happening}
    (hs : Course.tidings story' = Course.tidings story) :
    Shadows stray { c with errands := c.errands ++ [e], story }
      { c' with errands := c'.errands ++ [e], story := story' } where
  world := by
    rw [h.world, excess_congr fun n role => ?_]
    rw [strays_concat, hk, Bool.false_and, Bool.false_and, Bool.false_and, Bool.toNat_false,
      Nat.add_zero]
  duty := h.duty
  endpoints := h.endpoints
  terms := h.terms
  told := h.told
  tidings := hs
  length := by
    rw [List.length_append, List.length_append, h.length, List.length_singleton]
    unfold place
    rw [Nat.count_succ, if_pos hk]
  errands := fun k hkept => by
    by_cases hlast : k = c'.errands.length
    · rw [hlast, ← h.length, List.getElem?_concat_length, List.getElem?_concat_length]
    · have hplace : place stray k ≠ c.errands.length := by
        rw [h.length]
        exact fun heq => hlast ((place_inj hkept hk).mp heq)
      rw [getElem?_concat_ne hlast, getElem?_concat_ne hplace]
      exact h.errands k hkept

/-- Another submission goes on. -/
theorem Shadows.goes (h : Shadows stray c c') (hk : stray k = false)
    (he : c'.errands[k]? = some e) (stage : Errand.Stage) (world : World σ)
    (told : List (Nat × Role)) {story story' : List Happening}
    (hs : Course.tidings story' = Course.tidings story) :
    Shadows stray
      { c with world, told, errands := c.errands.set (place stray k) { e with stage }, story }
      { c' with
        world := world.refusing (excess stray c'.errands)
        told
        errands := c'.errands.set k { e with stage }
        story := story' } where
  world := by
    rw [excess_congr fun n role => ?_]
    have hcount := strays_set stray n role Errand.Stage.isRefused he stage
    simpa [hk] using hcount.symm
  duty := h.duty
  endpoints := h.endpoints
  terms := h.terms
  told := rfl
  tidings := hs
  length := by
    rw [List.length_set, List.length_set]
    exact h.length
  errands := fun j hj => by
    rw [List.getElem?_set', List.getElem?_set', h.errands j hj]
    by_cases hjk : k = j
    · rw [if_pos hjk, if_pos (by rw [hjk])]
    · rw [if_neg hjk, if_neg fun heq => hjk ((place_inj hk hj).mp heq)]

/-! ### One thing happens -/

theorem shadows_approach (h : Shadows stray c c') (n : Nat) (role : Role) (frame : Frame) :
    Shadows stray (((Act.approach n role frame).without stray c').elim c (step b c))
      (c'.approach n role frame) := by
  have hflag : c'.world.isStopping n = c.world.isStopping n := by
    rw [h.world, World.isStopping_refusing]
  unfold Act.without
  by_cases hn : n ∈ c'.endpoints
  · cases hk : stray c'.errands.length with
    | true =>
      simp only [approach, hn, if_true, true_and, Option.elim_none]
      split
      · exact h.astray hk rfl (tidings_append (List.forall_mem_singleton.mpr rfl))
      · exact h.astray hk rfl rfl
    | false =>
      simp only [hn, Bool.false_eq_true, and_false, if_false, Option.elim_some, step]
      unfold approach
      rw [if_pos hn, if_pos (h.endpoints ▸ hn), hflag]
      split
      · exact h.begin hk _ (tidings_congr h.tidings _)
      · exact h.begin hk _ h.tidings
  · simp only [hn, false_and, if_false, Option.elim_some, step]
    unfold approach
    rw [if_neg hn, if_neg (by rwa [← h.endpoints])]
    exact h

theorem shadows_advance (h : Shadows stray c (run b acts)) (hm : (run b acts).Malformed stray)
    (k : Nat) :
    Shadows stray (((Act.advance k).without stray (run b acts)).elim c (step b c))
      ((run b acts).advance k) := by
  unfold Act.without
  dsimp only
  cases hk : stray k with
  | true =>
    simp only [if_true, Option.elim_none]
    rcases advance_of_stray hm hk with hstay | ⟨e, fault, he, hs, hrefuse⟩
    · rw [hstay]
      exact h
    · rw [hrefuse]
      exact h.refuse hk he hs fault
  | false =>
    simp only [Bool.false_eq_true, if_false, Option.elim_some, step]
    generalize run b acts = c' at h
    unfold advance
    rw [h.errands k hk]
    cases he : c'.errands[k]? with
    | none => exact h
    | some e =>
      simp only [h.world, World.inbox?_refusing]
      cases hi : c.world.inbox? e.session with
      | none => exact h
      | some i =>
        simp only [Option.map_some, Errand.next_refusing, World.setInbox_refusing,
          World.listening_refusing, h.told]
        have hstory := tidings_congr h.tidings
          (e.tale (e.next i c.world.listening).2.1)
        cases (e.next i c.world.listening).2.2 with
        | true =>
          simp only [if_true, World.post_refusing]
          exact h.goes hk he _ _ _ hstory
        | false =>
          simp only [Bool.false_eq_true, if_false]
          exact h.goes hk he _ _ _ hstory

theorem shadows_work (h : Shadows stray c c') : Shadows stray (c.work b) (c'.work b) := by
  unfold work
  simp only [h.world, h.duty, h.endpoints, h.terms, h.told, World.work_refusing,
    World.listening_refusing, World.isToldNext_refusing, World.focus_refusing]
  exact h.follow (tidings_congr h.tidings _)

theorem shadows_start (hs : Sound c') (h : Shadows stray c c') (config : Config Float32)
    (factory : Factory σ) (clock : Clock) :
    Shadows stray (c.start config factory clock) (c'.start config factory clock) := by
  -- Nothing was handed to a session that is only asked for.
  have hblank : excess stray c'.errands c.world.inboxes.length = .twice 0 := by
    have hnone : ∀ role, strays stray c.world.inboxes.length role Errand.Stage.isRefused
        c'.errands = 0 := by
      refine fun role => strays_unknown fun e he hsession => ?_
      have hlt := hs.endpoint_lt _ (hs.errand_endpoint e he)
      rw [h.world, World.length_refusing, hsession] at hlt
      exact Nat.lt_irrefl _ hlt
    unfold excess
    rw [hnone, hnone]
    rfl
  unfold start
  simp only [h.world, h.duty, h.endpoints, h.terms, h.told, World.running_refusing,
    World.length_refusing]
  split
  · exact h
  split
  · exact h.follow (tidings_congr h.tidings _)
  split
  · exact h.follow (tidings_congr h.tidings _)
  · have hask := World.ask_refusing c.world (excess stray c'.errands) config hblank
    simp only [World.running_refusing] at hask
    rw [hask, World.post_refusing, World.listening_refusing]
    split
    · exact h.follow h.tidings
    · exact h.follow (tidings_congr h.tidings _)

theorem shadows_raise (h : Shadows stray c c') (leaving : Bool) (otherwise : Duty) :
    Shadows stray (c.raise leaving otherwise) (c'.raise leaving otherwise) := by
  unfold raise
  simp only [h.world, h.endpoints, h.terms, h.told, World.running_refusing]
  split
  · exact h.follow h.tidings
  · simp only [World.modifyInbox_refusing _ _ fun k i => Inbox.requestStop_refusing i k]
    exact h.follow h.tidings

theorem shadows_stop (h : Shadows stray c c') : Shadows stray c.stop c'.stop := by
  unfold stop
  rw [h.duty]
  split
  · exact shadows_raise h false .free
  · exact h

theorem shadows_leave (h : Shadows stray c c') : Shadows stray c.leave c'.leave := by
  unfold leave
  rw [h.duty]
  split
  · exact shadows_raise h true .leaving
  · exact h

theorem shadows_proceed (h : Shadows stray c c') : Shadows stray c.proceed c'.proceed := by
  unfold proceed settleStart
  simp only [h.world, h.duty, h.endpoints, h.terms, h.told, World.queue_refusing,
    World.answer_refusing, World.post_refusing, World.listening_refusing]
  split
  · exact h
  · split
    · exact h
    · split
      · exact h.follow (tidings_congr h.tidings _)
      · exact h.follow (tidings_congr h.tidings _)
      · exact h.follow (tidings_congr h.tidings _)
  · exact h.follow h.tidings
  · split
    · exact h
    · exact h.follow (tidings_congr h.tidings _)
  · exact h.follow h.tidings
  · split
    · exact h
    · exact h.follow h.tidings
  · exact h

/-- The course without the stray submissions goes along. -/
theorem shadows_run (hm : (run b acts).Malformed stray) :
    Shadows stray (run b (without b stray acts)) (run b acts) := by
  induction acts using List.reverseRecOn with
  | nil => exact shadows_new
  | append_singleton acts act ih =>
    rw [run_append] at hm
    have h := ih (malformed_of_step hm)
    rw [run_without, run_append]
    cases act with
    | approach n role frame => exact shadows_approach h n role frame
    | advance k => exact shadows_advance h (malformed_of_step hm) k
    | work => exact shadows_work h
    | start config factory clock => exact shadows_start (sound_run b acts) h config factory clock
    | stop => exact shadows_stop h
    | leave => exact shadows_leave h
    | proceed => exact shadows_proceed h

theorem counts_refusing (w : World σ) (stray : Nat → Bool) (errands : List Errand) {n : Nat}
    (hn : n < w.inboxes.length) (role : Role) :
    (w.refusing (excess stray errands)).counts n role =
      { w.counts n role with
        rejected := (w.counts n role).rejected +
          strays stray n role Errand.Stage.isRefused errands } := by
  have hi : w.inbox? n = some w.inboxes[n] := List.getElem?_eq_getElem hn
  have hi' : (w.refusing (excess stray errands)).inbox? n =
      some (w.inboxes[n].refusing (excess stray errands n)) := by
    rw [World.inbox?_refusing, hi]
    rfl
  rw [World.counts_eq hi, World.counts_eq hi', Inbox.stats_refusing, get_excess]

/-- Submissions with frames that their sessions do not admit do not interfere, wherever and
whenever they are made. Without them the others have the same answers, the thread does the same for
every session, and slots, flags, queue and counters are the same, up to the refused frames. Of those
there is one more for each stray submission that was begun while its session took frames, once its
frame has been checked. -/
theorem malformed_frames_do_not_interfere (b : Backend σ) (acts : List (Act σ))
    (stray : Nat → Bool) (hm : (run b acts).Malformed stray) :
    Shadows stray (run b (without b stray acts)) (run b acts) ∧
      ∀ n ∈ (run b acts).endpoints, ∀ role,
        ((run b acts).world.counts n role).rejected +
            strays stray n role Errand.Stage.isChecking (run b acts).errands =
          ((run b (without b stray acts)).world.counts n role).rejected +
            begun b stray n role acts := by
  have h := shadows_run hm
  refine ⟨h, fun n hn role => ?_⟩
  have hlt := (sound_run b acts).endpoint_lt n hn
  rw [h.world, World.length_refusing] at hlt
  have hcounts := counts_refusing _ stray (run b acts).errands hlt role
  rw [← h.world] at hcounts
  rw [hcounts, ← strays_run hm n role]
  dsimp only
  omega

/-- A frame waits in its slot while two others of the wrong size and packing are handed in. One of
them is checked only after the session was told to stop, and a third one comes after that. -/
theorem malformed_frames_are_only_counted :
    let b := obliging (.done ())
    let large : Frame := .packed (.filled 2 1 ⟨#[9, 9, 9, 255]⟩)
    let planar : Frame := .planar (.filled ⟨1, 1⟩ .yuv420 16 128 128)
    let acts : List (Act Unit) :=
      [.start onePixel (fun _ => ⟨.done (), []⟩) (.steady 1), .work, .proceed,
        .approach 0 .secondary (pixel 9 9 9), .advance 0, .advance 0, .advance 0, .advance 0,
        .approach 0 .secondary large, .advance 1, .approach 0 .primary planar, .work, .work, .work,
        .stop, .advance 2, .approach 0 .secondary large]
    let stray : Nat → Bool := fun k => 1 ≤ k
    (run b acts).Malformed stray ∧ (run b acts).errands.length = 4 ∧
      (run b (without b stray acts)).errands.length = 1 ∧
      (calls (workFor 0 (run b (without b stray acts)).story)).length = 2 ∧
      tidings (run b acts).story = tidings (run b (without b stray acts)).story ∧
      (∀ role, ((run b (without b stray acts)).world.counts 0 role).rejected = 0) ∧
      ∀ role, ((run b acts).world.counts 0 role).rejected = 1 := by
  intro b large planar acts stray
  have hm : (run b acts).Malformed stray := by
    have ht : (run b acts).terms[0]? = some ⟨onePixel, fun _ => ⟨.done (), []⟩, .steady 1⟩ :=
      term_run (term_of_start onePixel _ _ (by decide +kernel)) acts.tail
    have hbad : ∀ e ∈ (run b acts).errands.tail, e.session = 0 ∧
        (e.frame.validateFor e.role (onePixel.sources.get e.role)).isOk = false := by
      decide +kernel
    rintro (_ | k) e he hk ⟨t, ht', hvalid⟩
    · cases hk
    · rw [← List.getElem?_tail] at he
      obtain ⟨hsession, herror⟩ := hbad e (List.mem_of_getElem? he)
      rw [hsession, ht] at ht'
      cases ht'
      rw [hvalid] at herror
      cases herror
  obtain ⟨hshadows, hrejected⟩ := malformed_frames_do_not_interfere b acts stray hm
  have hcalm : ∀ role, ((run b (without b stray acts)).world.counts 0 role).rejected = 0 := by
    intro role
    cases role <;> decide +kernel
  refine ⟨hm, by decide +kernel, by decide +kernel, by decide +kernel, hshadows.tidings, hcalm,
    fun role => ?_⟩
  have hwaiting : strays stray 0 role Errand.Stage.isChecking (run b acts).errands = 0 := by
    cases role <;> decide +kernel
  have hbegun : begun b stray 0 role acts = 1 := by
    cases role <;> decide +kernel
  have hcount := hrejected 0 (by decide +kernel) role
  rw [hwaiting, hbegun, hcalm role, Nat.add_zero, Nat.zero_add] at hcount
  exact hcount

end Course

end PictureInPicture
