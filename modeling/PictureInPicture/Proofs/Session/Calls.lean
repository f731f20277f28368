-- The calls of a world are courses in which nobody comes in between: the thread works until
-- nothing is left to do, and the owner goes on as soon as it has its answer.
import PictureInPicture.Proofs.Session.Orderly
import PictureInPicture.Proofs.Session.Settling

namespace PictureInPicture

variable {σ : Type} {b : Backend σ}

/-- What happened on the thread, if it was on the thread. -/
def Happening.event? : Happening → Option Event
  | .worked _ event => some event
  | _ => none

namespace Course

variable {c c' c'' : Course σ}

/-! ## The owner calls -/

/-- From one course to another, some things happen, and they add this to the story. -/
def Leads (b : Backend σ) (c c' : Course σ) (tale : List Happening) : Prop :=
  ∃ acts : List (Act σ), acts.foldl (step b) c = c' ∧ c'.story = c.story ++ tale

theorem Leads.stay (c : Course σ) : Leads b c c [] := ⟨[], rfl, (List.append_nil _).symm⟩

theorem Leads.act {tale : List Happening} (act : Act σ)
    (htale : (c.step b act).story = c.story ++ tale) : Leads b c (c.step b act) tale :=
  ⟨[act], rfl, htale⟩

theorem Leads.trans {tale more : List Happening} (h : Leads b c c' tale)
    (h' : Leads b c' c'' more) : Leads b c c'' (tale ++ more) := by
  obtain ⟨acts, hacts, htale⟩ := h
  obtain ⟨later, hlater, hmore⟩ := h'
  refine ⟨acts ++ later, ?_, ?_⟩
  · rw [List.foldl_append, hacts, hlater]
  · rw [hmore, htale, List.append_assoc]

/-- A call of the owner in which nobody comes in between: it leaves the world as `world` and the
owner at `duty`, it hands out the endpoints of `opened`, `events` happen on the thread, and `last`
is told at its end. -/
def Comes (b : Backend σ) (c : Course σ) (world : World σ) (duty : Duty) (opened : List Nat)
    (events : List Event) (last : List Happening) : Prop :=
  ∃ c' tale, Leads b c c' (tale ++ last) ∧ c'.world = world ∧ c'.duty = duty ∧
    c'.endpoints = c.endpoints ++ opened ∧ tale.filterMap (·.event?) = events

section

variable {w w' : World σ} {duty duty' : Duty} {opened opened' : List Nat}
variable {events events' : List Event} {last : List Happening}

/-- A single step that is not on the thread. -/
theorem Comes.act (act : Act σ) (hworld : (c.step b act).world = w)
    (hduty : (c.step b act).duty = duty) (hends : (c.step b act).endpoints = c.endpoints ++ opened)
    (htale : (c.step b act).story = c.story ++ last) : Comes b c w duty opened [] last :=
  ⟨_, [], .act act htale, hworld, hduty, hends, rfl⟩

/-- The course goes on from where a call has come to. -/
theorem Comes.trans (h : Comes b c w duty opened events [])
    (h' : ∀ c', c'.world = w → c'.duty = duty → Comes b c' w' duty' opened' events' last) :
    Comes b c w' duty' (opened ++ opened') (events ++ events') last := by
  obtain ⟨c₁, tale₁, hleads₁, hworld₁, hduty₁, hends₁, htale₁⟩ := h
  obtain ⟨c₂, tale₂, hleads₂, hworld₂, hduty₂, hends₂, htale₂⟩ := h' c₁ hworld₁ hduty₁
  have hleads := hleads₁.trans hleads₂
  rw [List.append_nil, ← List.append_assoc] at hleads
  refine ⟨c₂, tale₁ ++ tale₂, hleads, hworld₂, hduty₂, ?_, ?_⟩
  · rw [hends₂, hends₁, List.append_assoc]
  · rw [List.filterMap_append, htale₁, htale₂]

/-- What is told at the end is in the story like everything else. -/
theorem Comes.told (h : Comes b c w duty opened events last)
    (hlast : last.filterMap (·.event?) = []) : Comes b c w duty opened events [] := by
  obtain ⟨c', tale, hleads, hworld, hduty, hends, htale⟩ := h
  refine ⟨c', tale ++ last, ?_, hworld, hduty, hends, ?_⟩
  · rw [List.append_nil]
    exact hleads
  · rw [List.filterMap_append, htale, hlast, List.append_nil]

end

/-- A call that is made after the run of some things leads to the run of some more. -/
theorem Comes.run {acts : List (Act σ)} {w : World σ} {duty : Duty} {opened : List Nat}
    {events : List Event} {last : List Happening}
    (h : Comes b (run b acts) w duty opened events last) :
    ∃ acts', (Course.run b acts').world = w ∧ (Course.run b acts').duty = duty ∧
      (Course.run b acts').endpoints = (Course.run b acts).endpoints ++ opened := by
  obtain ⟨c', tale, ⟨later, hlater, _⟩, hworld, hduty, hends, _⟩ := h
  have hrun : Course.run b (acts ++ later) = c' := by
    rw [← hlater]
    exact List.foldl_append
  exact ⟨acts ++ later, by rw [hrun]; exact ⟨hworld, hduty, hends⟩⟩

/-- While the thread goes on, nobody comes in between. -/
theorem comes_of_goes {w w' : World σ} {events : List Event} (h : World.Goes b w w' events)
    (hw : c.world = w) : Comes b c w' c.duty [] events [] := by
  induction h generalizing c with
  | stay => exact ⟨c, [], .stay c, hw, rfl, (List.append_nil _).symm, rfl⟩
  | step _ ih =>
    subst hw
    have hwork : Comes b c (c.work b).world c.duty [] (c.world.work b).2 [] := by
      refine ⟨c.work b, (c.world.work b).2.map (.worked c.world.focus), ?_, rfl, rfl, ?_, ?_⟩
      · rw [List.append_nil]
        exact .act .work rfl
      · exact (List.append_nil _).symm
      · rw [List.filterMap_map]
        exact List.filterMap_some
    exact hwork.trans fun c' hworld hduty => hduty ▸ ih hworld

/-- The thread works until nothing is left to do. -/
theorem settle_comes (b : Backend σ) (c : Course σ) :
    Comes b c (c.world.settle b).1 c.duty [] (c.world.settle b).2 [] :=
  comes_of_goes (World.goes_settle b c.world) rfl

/-- The owner asks for something, waits until nothing is left to do, and goes on. -/
theorem settle_between {posted w : World σ} {duty duty' : Duty} {opened : List Nat}
    {last : List Happening} (hasked : Comes b c posted duty [] [] []) (hheld : posted.Held)
    (hdone : ∀ c', c'.world = (posted.settle b).1 → c'.world.queue = [] → c'.duty = duty →
      Comes b c' w duty' opened [] last) :
    Comes b c w duty' opened (posted.settle b).2 last := by
  have hworked : Comes b c (posted.settle b).1 duty [] (posted.settle b).2 [] := by
    refine hasked.trans fun c' hworld hduty => ?_
    rw [← hworld, ← hduty]
    exact settle_comes b c'
  have hended := hworked.trans fun c' hworld hduty => by
    have hqueue : c'.world.queue = [] := by
      rw [hworld]
      exact (World.calm_settle b hheld).2
    exact hdone c' hworld hqueue hduty
  rw [List.append_nil] at hended
  exact hended

/-- The thread works until it is inside the next upload. -/
theorem settleToUpload_comes (b : Backend σ) (c : Course σ) :
    Comes b c c.world.settleToUpload.1 c.duty [] c.world.settleToUpload.2 [] :=
  comes_of_goes (World.goes_settleHeld _ c.world) rfl

/-! ### Starts -/

/-- What the owner hears of a start. -/
def heard : Except Fault Nat → Happening
  | .ok session => .started session
  | .error fault => .refused fault

/-- The session whose endpoints a start hands out. -/
def opened : Except Fault Nat → List Nat
  | .ok session => [session]
  | .error _ => []

section

variable {config : Config Float32} {factory : Factory σ} {clock : Clock}

/-- A start that is refused at once adds a session to the world at most. -/
theorem start_refused (hfree : c.duty = .free) {w : World σ} {terms : List (Terms σ)}
    {fault : Fault}
    (hc : c.start config factory clock =
      { c with world := w, terms, story := c.story ++ [.refused fault] }) :
    Comes b c w .free [] [] [.refused fault] := by
  have hstep : c.step b (.start config factory clock) = c.start config factory clock := rfl
  apply Comes.act (.start config factory clock)
  all_goals rw [hstep, hc]
  · exact hfree
  · exact (List.append_nil _).symm

theorem settleStart_answered (c : Course σ) (session : Nat) :
    c.settleStart session =
      { c with
        world := (c.world.answered session).1
        duty := .free
        endpoints := c.endpoints ++ opened (c.world.answered session).2
        story := c.story ++ [heard (c.world.answered session).2] } := by
  unfold settleStart World.answered
  cases hanswer : c.world.answer with
  | none => simp [opened, heard]
  | some answer => cases answer <;> simp [opened, heard, hanswer]

/-- The thread is done with a start, and the owner goes on with the answer. -/
theorem start_answered (b : Backend σ) {session : Nat} (hduty : c.duty = .starting session)
    (hqueue : c.world.queue = []) :
    Comes b c (c.world.answered session).1 .free (opened (c.world.answered session).2) []
      [heard (c.world.answered session).2] := by
  have hstep : c.step b .proceed = c.settleStart session := by
    show c.proceed = _
    simp [proceed, hduty, hqueue]
  rw [settleStart_answered] at hstep
  apply Comes.act .proceed
  all_goals rw [hstep]

/-- A start that reaches the thread is worked off there, and the owner hears the answer. -/
theorem start_served {posted : World σ} {terms : List (Terms σ)} {session : Nat}
    (hheld : posted.Held)
    (hc : c.start config factory clock =
      { c with world := posted, duty := .starting session, terms }) :
    Comes b c ((posted.settle b).1.answered session).1 .free
      (opened ((posted.settle b).1.answered session).2) (posted.settle b).2
      [heard ((posted.settle b).1.answered session).2] := by
  have hstep : c.step b (.start config factory clock) = c.start config factory clock := rfl
  have hasked : Comes b c posted (.starting session) [] [] [] := by
    apply Comes.act (.start config factory clock)
    all_goals rw [hstep, hc]
    all_goals exact (List.append_nil _).symm
  refine settle_between hasked hheld fun c' hworld hqueue hduty => ?_
  rw [← hworld]
  exact start_answered b hduty hqueue

/-- A start in which nobody comes in between does to the world what `World.start` does, the same
happens on the thread, and the owner hears the same. -/
theorem start_comes (b : Backend σ) (hfree : c.duty = .free) (hheld : c.world.Held)
    (config : Config Float32) (factory : Factory σ) (clock : Clock) :
    Comes b c (c.world.start b config factory clock).1 .free
      (opened (c.world.start b config factory clock).2.1)
      (c.world.start b config factory clock).2.2
      [heard (c.world.start b config factory clock).2.1] := by
  by_cases hrunning : c.world.running.isSome
  · have hc : c.start config factory clock =
        { c with story := c.story ++ [.refused .alreadyStarted] } := by
      simp [start, hfree, hrunning]
    have hw : c.world.start b config factory clock = (c.world, .error .alreadyStarted, []) := by
      simp [World.start, hrunning]
    rw [hw]
    exact start_refused hfree hc
  cases hvalid : config.validate with
  | error fault =>
    have hc : c.start config factory clock =
        { c with story := c.story ++ [.refused (.config (.invalid fault))] } := by
      simp [start, hfree, hrunning, hvalid]
    have hw : c.world.start b config factory clock =
        (c.world, .error (.config (.invalid fault)), []) := by
      simp [World.start, hrunning, hvalid]
    rw [hw]
    exact start_refused hfree hc
  | ok =>
    cases hlistening : (c.world.asked config).listening with
    | false =>
      have hc : c.start config factory clock =
          { c with
            world := c.world.asked config
            terms := c.terms ++ [⟨config, factory, clock⟩]
            story := c.story ++ [.refused World.notRunning] } := by
        unfold World.asked at hlistening ⊢
        simp [start, hfree, hrunning, hvalid, hlistening]
      have hw : c.world.start b config factory clock =
          (c.world.asked config, .error World.notRunning, []) := by
        unfold World.asked at hlistening ⊢
        simp [World.start, hrunning, hvalid, hlistening]
      rw [hw]
      exact start_refused hfree hc
    | true =>
      have hc : c.start config factory clock =
          { c with
            world := (c.world.asked config).post
              (.start c.world.inboxes.length config factory clock)
            duty := .starting c.world.inboxes.length
            terms := c.terms ++ [⟨config, factory, clock⟩] } := by
        unfold World.asked at hlistening ⊢
        simp [start, hfree, hrunning, hvalid, hlistening]
      rw [World.start_of_listening hrunning hvalid hlistening rfl]
      exact start_served (World.held_post hheld) hc

end

/-! ### Stops, and the end of the owner -/

/-- What is told of a stop: the session that was running has stopped. -/
def ended (running : Option Nat) : List Happening := (running.map .stopped).toList

/-- The flag of the running session is up. The thread is told, and works it off. -/
theorem raised_comes (b : Backend σ) {session : Nat} {leaving : Bool}
    (hduty : c.duty = .raised session leaving) (hheld : c.world.Held) :
    Comes b c ((c.world.post .stop).settle b).1 (if leaving then .leaving else .free) []
      ((c.world.post .stop).settle b).2 [.stopped session] := by
  have htold : c.step b .proceed =
      { c with world := c.world.post .stop, duty := .stopping session leaving } := by
    show c.proceed = _
    simp [proceed, hduty]
  have hasked : Comes b c (c.world.post .stop) (.stopping session leaving) [] [] [] := by
    apply Comes.act .proceed
    all_goals rw [htold]
    all_goals exact (List.append_nil _).symm
  refine settle_between hasked (World.held_post hheld) fun c' hworld hqueue hduty => ?_
  have hstep : c'.step b .proceed =
      { c' with
        duty := if leaving then .leaving else .free
        story := c'.story ++ [.stopped session] } := by
    show c'.proceed = _
    simp [proceed, hduty, hqueue]
  apply Comes.act .proceed
  all_goals rw [hstep]
  · exact hworld
  · exact (List.append_nil _).symm

/-- Whoever raises the flag of the running session comes to what `World.stop` gives. -/
theorem raise_comes (act : Act σ) (leaving : Bool)
    (hact : c.step b act = c.raise leaving (if leaving then .leaving else .free))
    (hheld : c.world.Held) :
    Comes b c (c.world.stop b).1 (if leaving then .leaving else .free) [] (c.world.stop b).2
      (ended c.world.running) := by
  unfold raise at hact
  unfold World.stop
  cases hrunning : c.world.running with
  | none =>
    rw [hrunning] at hact
    apply Comes.act act
    all_goals rw [hact]
    all_goals exact (List.append_nil _).symm
  | some session =>
    rw [hrunning] at hact
    have hraised : Comes b c { c.world.modifyInbox session .requestStop with running := none }
        (.raised session leaving) [] [] [] := by
      apply Comes.act act
      all_goals rw [hact]
      all_goals exact (List.append_nil _).symm
    refine hraised.trans fun c' hworld hduty => ?_
    have hflag : c'.world.Held := by
      rw [hworld]
      exact hheld
    have h := raised_comes b hduty hflag
    rw [hworld] at h
    exact h

/-- A stop in which nobody comes in between does to the world what `World.stop` does, and the same
happens on the thread. -/
theorem stop_comes (b : Backend σ) (hfree : c.duty = .free) (hheld : c.world.Held) :
    Comes b c (c.world.stop b).1 .free [] (c.world.stop b).2 (ended c.world.running) := by
  have hraise : c.step b .stop = c.raise false .free := if_pos hfree
  exact raise_comes .stop false hraise hheld

/-- The thread is told to end, and has ended when the owner is gone. -/
theorem leaving_comes (b : Backend σ) (hduty : c.duty = .leaving) (hheld : c.world.Held) :
    Comes b c { ((c.world.post .shutdown).settle b).1 with faults := [] } .left []
      ((c.world.post .shutdown).settle b).2 [] := by
  have htold : c.step b .proceed =
      { c with world := c.world.post .shutdown, duty := .joining } := by
    show c.proceed = _
    simp [proceed, hduty]
  have hasked : Comes b c (c.world.post .shutdown) .joining [] [] [] := by
    apply Comes.act .proceed
    all_goals rw [htold]
    all_goals exact (List.append_nil _).symm
  refine settle_between hasked (World.held_post hheld) fun c' hworld _ hduty => ?_
  have hgone : c'.world.thread = .gone := by
    rw [hworld]
    exact World.gone_settle (World.held_post hheld) World.ending_post
  have hstep : c'.step b .proceed =
      { c' with world := { c'.world with faults := [] }, duty := .left } := by
    show c'.proceed = _
    simp [proceed, hduty, World.listening, hgone]
  apply Comes.act .proceed
  all_goals rw [hstep]
  · rw [hworld]
  · exact (List.append_nil _).symm
  · exact (List.append_nil _).symm

/-- When the owner is given up and nobody comes in between, the world is what `World.close`
leaves of it, and the same happens on the thread. -/
theorem close_comes (b : Backend σ) (hfree : c.duty = .free) (hheld : c.world.Held) :
    Comes b c (c.world.close b).1 .left [] (c.world.close b).2 [] := by
  have hraise : c.step b .leave = c.raise true .leaving := if_pos hfree
  have hquiet : (ended c.world.running).filterMap (·.event?) = [] := by
    cases c.world.running <;> rfl
  have hstopped := (raise_comes .leave true hraise hheld).told hquiet
  refine hstopped.trans fun c' hworld hduty => ?_
  have hheld' : c'.world.Held := by
    rw [hworld]
    exact World.held_stop b hheld
  have h := leaving_comes b hduty hheld'
  rw [hworld] at h
  exact h

/-! ### One call after another -/

/-- A submission to an endpoint in which nobody comes in between does to the world what
`World.submit` does, and the owner has no part in it. -/
theorem submit_world {acts : List (Act σ)} {n : Nat} (hn : n ∈ (run b acts).endpoints)
    (role : Role) (frame : Frame) :
    ∃ acts', (run b acts').world = ((run b acts).world.submit n role frame).1 ∧
      (run b acts').duty = (run b acts).duty ∧
      (run b acts').endpoints = (run b acts).endpoints := by
  have hands := submit_handed (sound_run b acts) hn role frame
  have hrun : run b (acts ++ (run b acts).acts (.submit n role frame)) =
      (run b acts).submit n role frame := List.foldl_append
  refine ⟨acts ++ (run b acts).acts (.submit n role frame), ?_⟩
  rw [hrun, (hands_submit hands).1]
  refine ⟨rfl, ?_⟩
  generalize (run b acts).submit n role frame = c' at hands
  cases hands <;> exact ⟨rfl, rfl⟩

end Course

namespace World

/-- The worlds that calls lead to, one call after another, with the sessions whose endpoints were
handed out. Frames are handed in to these only. -/
inductive Called (b : Backend σ) : World σ → List Nat → Prop where
  | new : Called b (new σ) []
  | start {w handed} (h : Called b w handed) (config : Config Float32) (factory : Factory σ)
      (clock : Clock) :
      Called b (w.start b config factory clock).1
        (handed ++ Course.opened (w.start b config factory clock).2.1)
  | submit {w handed n} (h : Called b w handed) (hn : n ∈ handed) (role : Role) (frame : Frame) :
      Called b (w.submit n role frame).1 handed
  | settle {w handed} (h : Called b w handed) : Called b (w.settle b).1 handed
  | settleToUpload {w handed} (h : Called b w handed) : Called b w.settleToUpload.1 handed
  | stop {w handed} (h : Called b w handed) : Called b (w.stop b).1 handed

theorem Called.held {w : World σ} {handed : List Nat} (h : Called b w handed) : w.Held := by
  induction h with
  | new => exact .inl (.inl ⟨_, rfl⟩)
  | start _ config factory clock ih => exact held_start b ih config factory clock
  | submit _ _ role frame ih => exact held_submit ih _ role frame
  | settle _ ih => exact held_settle b ih
  | settleToUpload _ ih => exact held_settleHeld b _ ih
  | stop _ ih => exact held_stop b ih

/-- Every world that calls lead to is the world of a course, with an owner that is free. -/
theorem Called.run {w : World σ} {handed : List Nat} (h : Called b w handed) :
    ∃ acts, (Course.run b acts).world = w ∧ (Course.run b acts).duty = .free ∧
      (Course.run b acts).endpoints = handed := by
  -- A call that hands nothing out leaves the endpoints as they are.
  have onward : ∀ {acts w events last},
      Course.Comes b (Course.run b acts) w .free [] events last →
      ∃ acts', (Course.run b acts').world = w ∧ (Course.run b acts').duty = .free ∧
        (Course.run b acts').endpoints = (Course.run b acts).endpoints := by
    intro acts w events last hcomes
    have h := hcomes.run
    rw [List.append_nil] at h
    exact h
  induction h with
  | new => exact ⟨[], rfl, rfl, rfl⟩
  | start h config factory clock ih =>
    obtain ⟨acts, rfl, hfree, rfl⟩ := ih
    exact (Course.start_comes b hfree h.held config factory clock).run
  | submit h hn role frame ih =>
    obtain ⟨acts, rfl, hfree, rfl⟩ := ih
    rw [← hfree]
    exact Course.submit_world hn role frame
  | settle h ih =>
    obtain ⟨acts, rfl, hfree, rfl⟩ := ih
    exact onward (hfree ▸ Course.settle_comes b (Course.run b acts))
  | settleToUpload h ih =>
    obtain ⟨acts, rfl, hfree, rfl⟩ := ih
    exact onward (hfree ▸ Course.settleToUpload_comes b (Course.run b acts))
  | stop h ih =>
    obtain ⟨acts, rfl, hfree, rfl⟩ := ih
    exact onward (Course.stop_comes b hfree h.held)

end World

end PictureInPicture
