-- The flags of fresh sources. A flag is up when a frame was uploaded that no composite has
-- shown, and the composite that shows it takes the flag down.
import PictureInPicture.Proofs.Session.Record

namespace PictureInPicture

variable {σ : Type} {b : Backend σ}

/-! ## Frames that no composite has shown -/

/-- The source was uploaded, and no composite was presented since. -/
def Unshown (role : Role) (events : List Event) : Prop :=
  ∃ pre post, events = pre ++ .uploaded role (.done ()) :: post ∧
    ∀ stamp, .rendered stamp (.done .presented) ∉ post

/-- After an upload of the source, `post` comes to a composite with `between` before it. The
composite says that the source is fresh, and the source was not uploaded again. -/
def Shows (role : Role) (post between : List Event) : Prop :=
  ∃ stamp pair layers rest,
    post = between ++ .rendered stamp (.done .presented) ::
      .notice (.compositePresented stamp pair layers) :: rest ∧
    pair.get role = true ∧ .uploaded role (.done ()) ∉ between

theorem unshown_snoc {role : Role} {events : List Event} {e : Event} :
    Unshown role (events ++ [e]) ↔
      e = .uploaded role (.done ()) ∨
        Unshown role events ∧ ∀ stamp, e ≠ .rendered stamp (.done .presented) := by
  constructor
  · rintro ⟨pre, post, hsplit, hpost⟩
    rcases split_append hsplit with ⟨post', hevents, rfl⟩ | ⟨pre', _, hlast⟩
    · refine .inr ⟨⟨pre, post', hevents, fun stamp hmem => ?_⟩, fun stamp he => ?_⟩
      · exact hpost stamp (List.mem_append_left _ hmem)
      · exact hpost stamp (List.mem_append_right _ (he ▸ List.mem_cons_self))
    · cases pre' with
      | nil => exact .inl (List.cons.inj hlast).1
      | cons x pre' =>
        have hnil := (List.cons.inj hlast).2
        simp at hnil
  · rintro (rfl | ⟨⟨pre, post, rfl, hpost⟩, he⟩)
    · exact ⟨events, [], rfl, fun _ => List.not_mem_nil⟩
    · refine ⟨pre, post ++ [e], by simp, fun stamp hmem => ?_⟩
      rcases List.mem_append.mp hmem with hmem | hmem
      · exact hpost stamp hmem
      · exact he stamp (List.mem_singleton.mp hmem).symm

namespace Record

/-- The flag of a source is up exactly when no composite has shown its last frame. -/
theorem fresh_entered (role : Role) (events : List Event) :
    (events.foldl enter blank).fresh.get role = true ↔ Unshown role events := by
  induction events using List.reverseRecOn with
  | nil =>
    refine ⟨fun h => ?_, fun ⟨pre, post, h, _⟩ => ?_⟩
    · cases role <;> cases h
    · simp at h
  | append_singleton events e ih =>
    rw [List.foldl_append, List.foldl_cons, List.foldl_nil, unshown_snoc, ← ih]
    generalize events.foldl enter blank = r
    cases e with
    | uploaded role' outcome =>
      cases outcome with
      | done =>
        simp only [enter, Both.get_set, Event.uploaded.injEq, and_true]
        split
        · simp [*]
        · simp [*]
      | failed | crashed => simp [enter]
    | rendered stamp outcome =>
      cases outcome with
      | done presentation => cases presentation <;> simp [enter]
      | failed | crashed => simp [enter]
    | create | call | effect | drop => simp [enter]

end Record

/-! ## Composites say what they show -/

/-- Every composite is announced as soon as it was presented, with the flags that were up. -/
def Announced (r : Record) (events : List Event) : Prop :=
  ∀ pre stamp post, events = pre ++ .rendered stamp (.done .presented) :: post →
    ∃ layers rest, post =
      .notice (.compositePresented stamp (pre.foldl Record.enter r).fresh layers) :: rest

theorem announced_append {r : Record} {events more : List Event} (h : Announced r events)
    (h' : Announced (events.foldl Record.enter r) more) : Announced r (events ++ more) := by
  intro pre stamp post hsplit
  rcases split_append hsplit with ⟨post', hevents, rfl⟩ | ⟨pre', rfl, hmore⟩
  · obtain ⟨layers, rest, rfl⟩ := h pre stamp post' hevents
    exact ⟨layers, rest ++ more, rfl⟩
  · rw [List.foldl_append]
    exact h' pre' stamp post hmore

/-- Where no composite is presented, none has to be announced. -/
theorem announced_of_none {r : Record} {events : List Event}
    (h : ∀ stamp, .rendered stamp (.done .presented) ∉ events) : Announced r events := by
  rintro pre stamp post rfl
  exact absurd (List.mem_append_right _ List.mem_cons_self) (h stamp)

theorem announced_of_not_turn {r : Record} {events : List Event}
    (h : ∀ e ∈ events, e.isTurn = false) : Announced r events :=
  announced_of_none fun _ hmem => Bool.noConfusion (h _ hmem)

theorem announced_presented {r : Record} {stamp : Stamp} {layers : Nat} {more : List Event}
    (h : ∀ e ∈ more, e.isTurn = false) :
    Announced r
      (.rendered stamp (.done .presented) ::
        .notice (.compositePresented stamp r.fresh layers) :: more) := by
  intro pre stamp' post hsplit
  cases pre with
  | nil =>
    obtain ⟨hhead, rfl⟩ := List.cons.inj hsplit
    cases hhead
    exact ⟨layers, more, rfl⟩
  | cons e pre =>
    have hmem : Event.rendered stamp' (.done .presented) ∈
        .notice (.compositePresented stamp r.fresh layers) :: more := by
      rw [(List.cons.inj hsplit).2]
      exact List.mem_append_right _ List.mem_cons_self
    rcases List.mem_cons.mp hmem with heq | hmem
    · cases heq
    · cases h _ hmem

namespace Loop

variable {l : Loop σ} {i : Inbox} {role : Role} {frame : Frame}

theorem announced_tryRender : Announced i.record (l.tryRender b i).events := by
  have asked : Announced i.record (.call (.render (l.plan.drawOps l.gate.residency)
      l.clock.sample.1) :: (l.nextReply b).effects.map .effect) := by
    refine announced_of_none fun stamp hmem => ?_
    rcases List.mem_cons.mp hmem with heq | hmem
    · cases heq
    · cases Event.not_turn_effects _ _ hmem
  have hrecord : (Event.call (.render (l.plan.drawOps l.gate.residency) l.clock.sample.1) ::
      (l.nextReply b).effects.map .effect).foldl Record.enter i.record = i.record :=
    Record.entered_of_not_turn (Event.not_turn_effects _) i.record
  have undrawn : ∀ {more : List Event}, (∀ stamp, .rendered stamp (.done .presented) ∉ more) →
      Announced i.record
        ((.call (.render (l.plan.drawOps l.gate.residency) l.clock.sample.1) ::
          (l.nextReply b).effects.map .effect) ++ more) := fun hmore =>
    announced_append asked (announced_of_none hmore)
  unfold tryRender
  split
  · exact announced_of_not_turn (List.forall_mem_singleton.mpr rfl)
  · dsimp only
    unfold nextReply at asked hrecord undrawn
    split
    · rename_i ho
      rw [ho, List.cons_append, List.append_assoc, ← List.cons_append]
      refine announced_append asked ?_
      rw [hrecord]
      exact announced_presented (Event.not_turn_notices _)
    · rename_i ho
      rw [ho, List.cons_append, List.append_assoc, ← List.cons_append]
      exact undrawn (by simp [Event.notice])
    · rename_i fault ho
      rw [ho, ← List.cons_append]
      exact undrawn (by simp)
    · rename_i crash ho
      rw [ho, ← List.cons_append]
      exact undrawn (by simp)

theorem announced_process : Announced i.record (l.process b i role frame).events := by
  have told : ∀ more : List Event, (∀ e ∈ more, e.isTurn = false) →
      Announced i.record (l.uploading b role frame ++ more) := by
    intro more hmore
    refine announced_append (announced_of_none fun stamp hmem => ?_) (announced_of_not_turn hmore)
    rcases List.mem_append.mp hmem with hmem | hmem
    · cases Event.not_turn_effects _ _ hmem
    · cases List.mem_singleton.mp hmem
  unfold process
  dsimp only
  split
  · split
    · have hnone := told [] (List.forall_mem_nil _)
      rw [List.append_nil] at hnone
      exact hnone
    · exact told _ (List.forall_mem_singleton.mpr rfl)
  · have hnone := told [] (List.forall_mem_nil _)
    rw [List.append_nil] at hnone
    exact hnone
  · rename_i ho
    refine announced_append (told _ (Event.not_turn_notices _)) ?_
    have hrecord : (l.uploading b role frame ++
        ((l.uploaded b role frame).admitUpload i role).2.2.map Event.notice).foldl Record.enter i.record =
          ((i.markFresh role).countUploaded role).record := by
      rw [List.foldl_append, entered_uploading, ho,
        Record.entered_of_not_turn (Event.not_turn_notices _), Inbox.record_upload]
    have hdrawn := announced_tryRender (b := b) (l := l.admitted b role frame)
      (i := (i.markFresh role).countUploaded role)
    rw [← hrecord] at hdrawn
    exact hdrawn

/-- A composite that is presented takes the flags down, and nothing else does. -/
theorem fresh_draws {turn : Turn σ Attempt} (h : Draws b l i turn) :
    turn.inbox.fresh =
      match turn.outcome with
      | .done (.rendered _) => .twice false
      | _ => i.fresh := by
  cases h <;> rfl

theorem fresh_processes {turn : Turn σ (Option Attempt)} (h : Processes b l i role frame turn) :
    turn.inbox.fresh =
      match turn.outcome with
      | .done (some (.rendered _)) => .twice false
      | _ =>
        if (b.upload l.backend role frame).outcome.isDone then i.fresh.set role true
        else i.fresh := by
  cases h with
  | fail ho | crash ho =>
    rw [ho]
    rfl
  | reject ho =>
    rw [ho]
    exact congrArg Record.fresh (Inbox.record_countRejected i role)
  | @store turn ho _ hd =>
    have hmark : ((i.markFresh role).countUploaded role).fresh = i.fresh.set role true :=
      congrArg Record.fresh (Inbox.record_upload i role)
    have hdrawn := fresh_draws hd
    rw [hmark] at hdrawn
    rw [ho]
    dsimp only
    rw [hdrawn]
    obtain ⟨_, _, outcome, _⟩ := turn
    cases outcome with
    | done attempt => cases attempt <;> rfl
    | failed | crashed => rfl

end Loop

namespace World

/-- What a step of the thread does for a session is announced. -/
theorem announced_works {w w' : World σ} {events : List Event} (h : Works b w w' events) {n : Nat}
    {r : Record} (hr : ∀ i, w.inbox? n = some i → i.record = r) :
    Announced r (if w.focus = some n then events else []) := by
  rcases works_turn h with ⟨active, role, frame, i, hc⟩ | ⟨hquiet, _⟩
  · split
    · rename_i hf
      obtain rfl := Option.some.inj ((focus_of_closes hc).symm.trans hf)
      obtain ⟨closing, hevents, hclosing⟩ := hc.events
      rw [hevents, ← hr i hc.inbox]
      exact announced_append Loop.announced_process (announced_of_not_turn hclosing)
    · exact announced_of_not_turn (List.forall_mem_nil _)
  · refine announced_of_not_turn fun e he => ?_
    split at he
    · exact hquiet e he
    · cases he

end World

namespace Course

/-- In every state the composites of a session were announced. -/
theorem announced_run (b : Backend σ) (acts : List (Act σ)) (n : Nat) :
    Announced .blank (workFor n (run b acts).story) := by
  induction acts using List.reverseRecOn with
  | nil => exact announced_of_not_turn (List.forall_mem_nil _)
  | append_singleton acts act ih =>
    rw [run_append]
    rcases step_moves b (run b acts) act with hsame | hm
    · rw [hsame]
      exact ih
    · rcases workFor_moves hm n with hsame | ⟨events, hw, hmore⟩
      · rw [hsame]
        exact ih
      · rw [hmore]
        exact announced_append ih (World.announced_works hw fun i hi => record_run b acts hi)

/-- The composite that shows an upload is the next one after it. -/
theorem first_of_shows {work pre post between : List Event} {role : Role}
    (hwork : Announced .blank work) (hsplit : work = pre ++ .uploaded role (.done ()) :: post)
    (h : Shows role post between) (stamp : Stamp) :
    .rendered stamp (.done .presented) ∉ between := by
  obtain ⟨stamp', pair, layers, rest, rfl, hpair, hnone⟩ := h
  have hbefore : work = (pre ++ [Event.uploaded role (.done ())] ++ between) ++
      .rendered stamp' (.done .presented) ::
        .notice (.compositePresented stamp' pair layers) :: rest := by
    rw [hsplit]
    simp
  obtain ⟨_, _, hpost⟩ := hwork _ _ _ hbefore
  have hpair' : pair =
      ((pre ++ [Event.uploaded role (.done ())] ++ between).foldl Record.enter .blank).fresh := by
    cases (List.cons.inj hpost).1
    rfl
  rw [hpair', Record.fresh_entered] at hpair
  obtain ⟨pre', post', hlast, hpost'⟩ := hpair
  rcases split_append hlast with ⟨between', _, rfl⟩ | ⟨pre'', _, rfl⟩
  · intro hmem
    exact hpost' stamp (List.mem_append_right _ hmem)
  · exact absurd (List.mem_append_right _ List.mem_cons_self) hnone

/-- For each source of a session, in every state and whatever a backend answers: its flag is up
exactly when an upload of it went well after the last composite that was presented. The end of an
upload takes both flags down if a composite was presented, and otherwise leaves them as the upload
left them. A composite that is presented says of each source whether it was uploaded since the
one before, and so no two composites show the same upload. -/
theorem freshness_is_used_up_once (b : Backend σ) (acts : List (Act σ)) (n : Nat) (i : Inbox)
    (hi : (run b acts).world.inbox? n = some i) :
    let c := run b acts
    let work := workFor n c.story
    (∀ role, i.fresh.get role = true ↔ Unshown role work) ∧
    (∀ active role frame, c.world.thread = .uploading active role frame → active.session = n →
      ∃ i', (c.step b .work).world.inbox? n = some i' ∧
        i'.fresh =
          match (active.loop.process b i role frame).outcome with
          | .done (some (.rendered _)) => .twice false
          | _ =>
            if (b.upload active.loop.backend role frame).outcome.isDone then i.fresh.set role true
            else i.fresh) ∧
    (∀ stamp pre post, work = pre ++ .rendered stamp (.done .presented) :: post →
      ∃ pair layers rest, post = .notice (.compositePresented stamp pair layers) :: rest ∧
        ∀ role, pair.get role = true ↔ Unshown role pre) ∧
    ∀ role pre post, work = pre ++ .uploaded role (.done ()) :: post →
      ∀ between between', Shows role post between → Shows role post between' →
        between = between' := by
  intro c work
  have hannounced : Announced .blank work := announced_run b acts n
  refine ⟨fun role => ?_, fun active role frame ht hn => ?_, fun stamp pre post hwork => ?_,
    fun role pre post hwork between between' h h' => ?_⟩
  · have hrecord : i.fresh = (work.foldl Record.enter .blank).fresh :=
      congrArg Record.fresh (record_run b acts hi)
    rw [hrecord]
    exact Record.fresh_entered role work
  · subst hn
    obtain ⟨i', hi', hrecord⟩ := (World.closes_work (b := b) ht hi).own
    refine ⟨i', hi', ?_⟩
    have hfresh := congrArg Record.fresh hrecord
    exact hfresh.trans (Loop.fresh_processes (Loop.process_processes b active.loop i role frame))
  · obtain ⟨layers, rest, hpost⟩ := hannounced pre stamp post hwork
    exact ⟨_, layers, rest, hpost, fun role => Record.fresh_entered role pre⟩
  · have hfirst := first_of_shows hannounced hwork h
    have hfirst' := first_of_shows hannounced hwork h'
    obtain ⟨stamp, _, _, _, hsplit, _, _⟩ := h
    obtain ⟨stamp', _, _, _, hsplit', _, _⟩ := h'
    rcases split_append (hsplit.symm.trans hsplit') with ⟨_, rfl, _⟩ | ⟨more, rfl, hmore⟩
    · exact absurd (List.mem_append_right _ List.mem_cons_self) (hfirst stamp')
    · cases more with
      | nil => exact (List.append_nil between).symm
      | cons e more =>
        obtain ⟨rfl, _⟩ := List.cons.inj hmore
        exact absurd (List.mem_append_right _ List.mem_cons_self) (hfirst' stamp)

/-- The first overlay waits for a background and is shown with it. The second one is shown
alone. -/
theorem two_composites_share_no_upload :
    let b := obliging (.done ())
    let submit : Nat → Role → List (Act Unit) := fun k role =>
      [.approach 0 role (pixel 9 9 9), .advance k, .advance k, .advance k, .advance k,
        .work, .work, .work]
    let opened := [.start onePixel (fun _ => ⟨.done (), []⟩) (.steady 1), .work, .proceed]
    let early := opened ++ submit 0 .primary
    let late := early ++ submit 1 .secondary ++ submit 2 .primary
    ((run b early).world.inbox? 0).map (·.fresh) = some ⟨true, false⟩ ∧
      Unshown .primary (workFor 0 (run b early).story) ∧
      (calls (workFor 0 (run b late).story)).length = 5 ∧
      ((run b late).world.inbox? 0).map (·.fresh) = some ⟨false, false⟩ ∧
      ∀ role, ¬Unshown role (workFor 0 (run b late).story) := by
  intro b submit opened early late
  have hearly : ((run b early).world.inbox? 0).map (·.fresh) = some ⟨true, false⟩ := by
    decide +kernel
  have hlate : ((run b late).world.inbox? 0).map (·.fresh) = some ⟨false, false⟩ := by
    decide +kernel
  obtain ⟨i, hi, hfresh⟩ := Option.map_eq_some_iff.mp hearly
  obtain ⟨j, hj, hfresh'⟩ := Option.map_eq_some_iff.mp hlate
  refine ⟨hearly, ?_, by decide +kernel, hlate, fun role => ?_⟩
  · apply ((freshness_is_used_up_once b early 0 i hi).1 .primary).mp
    rw [hfresh]
    rfl
  · rw [← (freshness_is_used_up_once b late 0 j hj).1 role, hfresh']
    cases role <;> exact Bool.false_ne_true

end Course

end PictureInPicture
