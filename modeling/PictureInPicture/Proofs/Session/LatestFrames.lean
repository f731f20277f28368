-- A session that draws in memory is a machine that keeps the latest frame of each source. What
-- its receiver gets is what a new backend would draw of these frames alone.
import PictureInPicture.Proofs.Raster.Residue
import PictureInPicture.Proofs.Session.Orderly
import PictureInPicture.Proofs.Session.Rounds

namespace PictureInPicture

variable {σ τ : Type}

/-! ## The machine -/

/-- The latest frame of each source, and the clock of the pictures. -/
structure Latest where
  frames : Both (Option Frame)
  clock : Clock

namespace Latest

def start (clock : Clock) : Latest := ⟨.twice none, clock⟩

/-- The sources that have had a frame. -/
def seen (m : Latest) : Both Bool := m.frames.map (·.isSome)

/-- The startup policy is met: the background has had a frame, or any source has. -/
def isMet (config : Config Float32) (m : Latest) : Bool :=
  match config.startup with
  | .strict => m.seen.get config.layout.background
  | .bestEffort => m.seen.primary || m.seen.secondary

/-- The picture that a new backend draws when it was handed the latest frames and nothing else. -/
def picture? (config : Config Float32) (m : Latest) : Option OutputFrame :=
  match Raster.State.create config with
  | .error _ => none
  | .ok fresh =>
    let ops := (Plan.ofConfig config).drawOps ⟨m.seen⟩
    match ((fresh.showing m.frames).render ops m.clock.sample.1).effects with
    | [.frame f] => some f
    | _ => none

/-- A frame takes the place of the latest one of its source. -/
def keep (m : Latest) (role : Role) (frame : Frame) : Latest :=
  { m with frames := m.frames.set role (some frame) }

/-- A frame is kept, and one picture is drawn if the startup policy is met. -/
def step (config : Config Float32) (m : Latest) (taken : Role × Frame) :
    Latest × List (Option OutputFrame) :=
  let m := m.keep taken.1 taken.2
  if m.isMet config then ({ m with clock := m.clock.sample.2 }, [m.picture? config]) else (m, [])

/-- The machine after some frames, with all its pictures. -/
def run (config : Config Float32) (clock : Clock) (taken : List (Role × Frame)) :
    Latest × List (Option OutputFrame) :=
  taken.foldl (fun (m, pictures) x =>
    let (m, more) := m.step config x
    (m, pictures ++ more)) (start clock, [])

theorem run_concat (config : Config Float32) (clock : Clock) (taken : List (Role × Frame))
    (x : Role × Frame) :
    run config clock (taken ++ [x]) =
      (((run config clock taken).1.step config x).1,
        (run config clock taken).2 ++ ((run config clock taken).1.step config x).2) := by
  unfold run
  rw [List.foldl_append]
  rfl

end Latest

/-! ## Sessions that draw in memory -/

/-- Two kinds of backends under one roof. -/
def Backend.beside (b : Backend σ) (b' : Backend τ) : Backend (σ ⊕ τ) where
  upload s role frame :=
    match s with
    | .inl s =>
      let reply := b.upload s role frame
      ⟨.inl reply.state, reply.outcome, reply.effects⟩
    | .inr s =>
      let reply := b'.upload s role frame
      ⟨.inr reply.state, reply.outcome, reply.effects⟩
  render s ops stamp :=
    match s with
    | .inl s =>
      let reply := b.render s ops stamp
      ⟨.inl reply.state, reply.outcome, reply.effects⟩
    | .inr s =>
      let reply := b'.render s ops stamp
      ⟨.inr reply.state, reply.outcome, reply.effects⟩

/-- The way to make a backend that draws in memory, beside other ones. -/
def Raster.factory (τ : Type) : Factory (Raster.State ⊕ τ) := fun config =>
  { outcome := match Raster.State.create config with
      | .ok state => .done (.inl state)
      | .error crash => .crashed crash
    effects := [.notice (.softwareReady config.output)] }

namespace Event

/-- The picture that the receiver gets. -/
def frame? : Event → Option OutputFrame
  | effect (.frame f) => some f
  | _ => none

/-- The receiver gets its pictures in the rounds of the loop. -/
theorem frames_rounds (events : List Event) :
    (events.filter isRound).filterMap frame? = events.filterMap frame? := by
  refine filterMap_rounds (fun e he => ?_) events
  cases e with
  | effect effect =>
    cases effect with
    | notice => rfl
    | surface | frame => cases he
  | _ => rfl

end Event

/-- The pictures that the receiver of a session got, in their order. -/
def pictures (n : Nat) (story : List Happening) : List OutputFrame :=
  (workFor n story).filterMap Event.frame?

namespace Loop

variable {other : Backend τ} {config : Config Float32} {l : Loop (Raster.State ⊕ τ)} {m : Latest}
  {role : Role} {frame : Frame}

/-- The loop is where the machine is. -/
structure Mirrors (config : Config Float32) (l : Loop (Raster.State ⊕ τ)) (m : Latest) :
    Prop where
  backend : ∃ s, l.backend = .inl s ∧ s.Shows config m.frames
  plan : l.plan = .ofConfig config
  gate : l.gate = ⟨config.startup, config.mandatory, ⟨m.seen⟩⟩
  clock : l.clock = m.clock
  valid : ∀ role frame, m.frames.get role = some frame →
    frame.validateFor role (config.sources.get role) = .ok ()

theorem mirrors_start (config : Config Float32) (clock : Clock) :
    Mirrors (τ := τ) config (.ofConfig config clock (.inl (.blank config))) (.start clock) := by
  refine ⟨⟨_, rfl, Raster.State.shows_blank config⟩, rfl, rfl, rfl, fun role frame h => ?_⟩
  rw [Latest.start, Both.get_twice] at h
  cases h

theorem isOpen_of_mirrors (h : Mirrors config l m) : l.gate.isOpen = m.isMet config := by
  rw [h.gate]
  unfold Gate.isOpen Latest.isMet
  cases config.startup <;> rfl

/-! ### One round -/

/-- An upload that does not crash keeps loop and machine together. -/
theorem upload_of_mirrors (other : Backend τ) (h : Mirrors config l m)
    (hv : frame.validateFor role (config.sources.get role) = .ok ()) :
    let reply := (Raster.backend.beside other).upload l.backend role frame
    reply.effects = [] ∧
      (reply.outcome = .done () ∧
        Mirrors config (l.admitted (Raster.backend.beside other) role frame) (m.keep role frame) ∨
      ∃ crash, reply.outcome = .crashed crash) := by
  intro reply
  obtain ⟨s, hs, hshows⟩ := h.backend
  obtain ⟨heffects, hend⟩ := Raster.State.upload_of_shows hshows hv
  have hreply : reply =
      ⟨.inl (s.upload role frame).state, (s.upload role frame).outcome,
        (s.upload role frame).effects⟩ := by
    unfold reply
    rw [hs]
    rfl
  rw [hreply]
  refine ⟨heffects, hend.imp_left fun ⟨hdone, hnext⟩ => ⟨hdone, ?_⟩⟩
  refine ⟨⟨_, ?_, hnext⟩, h.plan, ?_, h.clock, fun r f hf => ?_⟩
  · exact congrArg Reply.state hreply
  · unfold admitted Gate.recordUpload Residency.mark Latest.keep Latest.seen
    dsimp only
    rw [h.gate]
    cases role <;> rfl
  · change (m.frames.set role (some frame)).get r = some f at hf
    rw [Both.get_set] at hf
    split at hf
    · rename_i hr
      cases hf
      rw [← hr]
      exact hv
    · exact h.valid r f hf

/-- What the receiver gets while the loop draws. -/
theorem frames_drawing (b : Backend σ) (l : Loop σ) :
    (l.drawing b).filterMap Event.frame? = ((l.nextReply b).effects.filterMap Effect.frame?) := by
  have heffects : ((l.nextReply b).effects.map Event.effect).filterMap Event.frame? =
      (l.nextReply b).effects.filterMap Effect.frame? := by
    rw [List.filterMap_map]
    congr 1
    funext e
    cases e <;> rfl
  unfold drawing
  rw [List.filterMap_cons, List.filterMap_append, heffects]
  exact List.append_nil _

theorem frames_notices (notices : List Notice) :
    (notices.map Event.notice).filterMap Event.frame? = [] :=
  List.filterMap_eq_nil_iff.mpr fun e he => by
    obtain ⟨_, _, rfl⟩ := List.mem_map.mp he
    rfl

/-- The next drawing is the picture of the machine, unless it crashes. -/
theorem nextReply_of_mirrors (other : Backend τ) (h : Mirrors config l m)
    (hcreate : Raster.State.create config = .ok (.blank config)) :
    let reply := l.nextReply (Raster.backend.beside other)
    (∃ s, reply.state = .inl s ∧ s.Shows config m.frames) ∧
      (reply.outcome = .done .presented ∧
        (reply.effects.filterMap Effect.frame?).map some = [m.picture? config] ∨
      ∃ crash, reply.outcome = .crashed crash) := by
  intro reply
  obtain ⟨s, hs, hshows⟩ := h.backend
  have hreply : reply =
      ⟨.inl (s.render ((Plan.ofConfig config).drawOps ⟨m.seen⟩) m.clock.sample.1).state,
        (s.render ((Plan.ofConfig config).drawOps ⟨m.seen⟩) m.clock.sample.1).outcome,
        (s.render ((Plan.ofConfig config).drawOps ⟨m.seen⟩) m.clock.sample.1).effects⟩ := by
    unfold reply nextReply
    rw [hs, h.plan, h.gate, h.clock]
    rfl
  have hnew := Raster.State.render_of_shows (Raster.State.shows_showing h.valid) hshows
    ((Plan.ofConfig config).drawOps ⟨m.seen⟩) m.clock.sample.1
  rw [hreply]
  refine ⟨⟨_, rfl, Raster.State.shows_render hshows _ _⟩, ?_⟩
  refine (Raster.State.render_of_receiving hshows.receiving _ _).imp_left ?_
  rintro ⟨hdone, f, hf⟩
  refine ⟨hdone, ?_⟩
  have hpicture : m.picture? config = some f := by
    unfold Latest.picture?
    rw [hcreate]
    dsimp only
    rw [hnew, hf]
  rw [hf, hpicture]
  rfl

/-- The drawing of a round keeps loop and machine together. -/
theorem draws_of_mirrors (h : Mirrors config l m)
    (hcreate : Raster.State.create config = .ok (.blank config)) {i : Inbox} {turn : Turn _ Attempt}
    (hd : Draws (Raster.backend.beside other) l i turn) (hc : ∀ e ∈ turn.events, e.isCrash = false) :
    Mirrors config turn.loop
        (if m.isMet config then { m with clock := m.clock.sample.2 } else m) ∧
      (turn.events.filterMap Event.frame?).map some =
        if m.isMet config then [m.picture? config] else [] := by
  obtain ⟨hstate, hend⟩ := nextReply_of_mirrors other h hcreate
  have hopen := isOpen_of_mirrors h
  have hdrawn : Mirrors config (l.drawn (Raster.backend.beside other))
      { m with clock := m.clock.sample.2 } := by
    refine ⟨hstate, h.plan, h.gate, ?_, h.valid⟩
    change l.clock.sample.2 = _
    rw [h.clock]
  cases hd with
  | withhold hg n =>
    rw [hg] at hopen
    rw [← hopen]
    exact ⟨h, rfl⟩
  | present hg ho notices =>
    rw [hg] at hopen
    rw [← hopen, if_pos rfl, if_pos rfl, List.filterMap_append, frames_notices, List.append_nil,
      frames_drawing]
    refine ⟨hdrawn, ?_⟩
    rcases hend with ⟨_, hpicture⟩ | ⟨crash, hcrash⟩
    · exact hpicture
    · rw [ho] at hcrash
      cases hcrash
  | skip _ ho | fail _ ho =>
    rcases hend with ⟨hdone, _⟩ | ⟨crash, hcrash⟩
    · rw [ho] at hdone
      cases hdone
    · rw [ho] at hcrash
      cases hcrash
  | @crash crash _ ho =>
    have hmem : .rendered l.clock.sample.1 (.crashed crash) ∈
        l.drawing (Raster.backend.beside other) := by
      unfold drawing
      rw [ho]
      simp
    cases hc _ hmem

/-- A round that does not crash is a step of the machine. -/
theorem processes_of_mirrors (h : Mirrors config l m)
    (hcreate : Raster.State.create config = .ok (.blank config))
    (hv : frame.validateFor role (config.sources.get role) = .ok ()) {i : Inbox}
    {turn : Turn _ (Option Attempt)}
    (hp : Processes (Raster.backend.beside other) l i role frame turn)
    (hc : ∀ e ∈ turn.events, e.isCrash = false) :
    Mirrors config turn.loop (m.step config (role, frame)).1 ∧
      (turn.events.filterMap Event.frame?).map some = (m.step config (role, frame)).2 := by
  obtain ⟨heffects, hend⟩ := upload_of_mirrors other h hv
  have hfault : ∀ fault,
      ((Raster.backend.beside other).upload l.backend role frame).outcome ≠ .failed fault := by
    intro fault ho
    rcases hend with ⟨hdone, _⟩ | ⟨crash, hcrash⟩
    · rw [ho] at hdone
      cases hdone
    · rw [ho] at hcrash
      cases hcrash
  cases hp with
  | fail ho | reject ho => exact absurd ho (hfault _)
  | @crash crash ho =>
    have hmem : .uploaded role (.crashed crash) ∈
        l.uploading (Raster.backend.beside other) role frame := by
      unfold uploading
      rw [ho]
      simp
    cases hc _ hmem
  | @store turn ho notices hd =>
    rcases hend with ⟨_, hnext⟩ | ⟨crash, hcrash⟩
    swap
    · rw [ho] at hcrash
      cases hcrash
    · obtain ⟨hmirrors, hframes⟩ := draws_of_mirrors hnext hcreate hd
        fun e he => hc e (List.mem_append_right _ he)
      have hup : (l.uploading (Raster.backend.beside other) role frame).filterMap Event.frame? =
          [] := by
        unfold uploading
        rw [heffects]
        rfl
      rw [List.filterMap_append, List.filterMap_append, hup, frames_notices]
      unfold Latest.step
      dsimp only
      split
      · rename_i hmet
        rw [if_pos hmet] at hmirrors hframes
        exact ⟨hmirrors, hframes⟩
      · rename_i hmet
        rw [if_neg hmet] at hmirrors hframes
        exact ⟨hmirrors, hframes⟩

/-- Rounds without a crash are a run of the machine. -/
theorem rounds_mirror (hcreate : Raster.State.create config = .ok (.blank config)) {clock : Clock}
    {taken : List (Role × Frame)} {events : List Event}
    (hr : Rounds (Raster.backend.beside other) (.ofConfig config clock (.inl (.blank config)))
      taken events l)
    (hv : ∀ x ∈ taken, x.2.validateFor x.1 (config.sources.get x.1) = .ok ())
    (hc : ∀ e ∈ events, e.isCrash = false) :
    Mirrors config l (Latest.run config clock taken).1 ∧
      (events.filterMap Event.frame?).map some = (Latest.run config clock taken).2 := by
  induction hr with
  | rest => exact ⟨mirrors_start config clock, rfl⟩
  | @turn taken events l role frame turn i _ hp ih =>
    obtain ⟨hmirrors, hframes⟩ := ih (fun x hx => hv x (List.mem_append_left _ hx))
      fun e he => hc e (List.mem_append_left _ he)
    obtain ⟨hnext, hmore⟩ := processes_of_mirrors hmirrors hcreate
      (hv (role, frame) (List.mem_append_right _ List.mem_cons_self)) hp
      fun e he => hc e (List.mem_append_right _ (List.mem_cons_of_mem _ he))
    rw [Latest.run_concat, List.filterMap_append, List.map_append, hframes]
    exact ⟨hnext, congrArg _ hmore⟩

end Loop

/-! ## Whole sessions -/

namespace Course

theorem create_of_factory {config : Config Float32} {backend : Raster.State ⊕ τ}
    (h : (Raster.factory τ config).outcome = .done backend) :
    Raster.State.create config = .ok (.blank config) ∧ backend = .inl (.blank config) := by
  unfold Raster.factory Raster.State.create at *
  cases hr : reserve (Raster.State.memories config) with
  | error crash =>
    rw [hr] at h
    cases h
  | ok =>
    rw [hr] at h
    cases h
    exact ⟨rfl, rfl⟩

theorem pictures_opening (config : Config Float32) (clock : Clock) :
    (Terms.opening ⟨config, Raster.factory τ, clock⟩).filterMap Event.frame? = [] := rfl

/-- Whatever producers, thread and owner do, and in whatever order: as long as no call on its
backend crashes, the receiver of a session that draws in memory gets the pictures of the machine
for the frames that were taken out of the slots, and no others. The frame that is being uploaded
is not yet among them. -/
theorem pictures_are_of_the_latest_frames (other : Backend τ) (acts : List (Act (Raster.State ⊕ τ)))
    (n : Nat) (config : Config Float32) (clock : Clock)
    (ht : (run (Raster.backend.beside other) acts).terms[n]? =
      some ⟨config, Raster.factory τ, clock⟩)
    (hc : ∀ e ∈ workFor n (run (Raster.backend.beside other) acts).story, e.isCrash = false) :
    let c := run (Raster.backend.beside other) acts
    ∃ taken, takings n c.story = taken ++ c.world.inHand n ∧
      (pictures n c.story).map some = (Latest.run config clock taken).2 := by
  intro c
  have hpictures : pictures n c.story =
      ((workFor n c.story).filter Event.isRound).filterMap Event.frame? :=
    (Event.frames_rounds _).symm
  rcases rounds_of_run _ acts ht with ⟨htakings, hhand, hwork⟩ |
    ⟨backend, taken, events, l, hb, hr, htakings, hwork⟩
  · refine ⟨[], by rw [htakings, hhand]; rfl, ?_⟩
    rw [hpictures]
    rcases hwork with hwork | hwork
    · rw [hwork]
      rfl
    · rw [hwork, pictures_opening]
      rfl
  · obtain ⟨hcreate, rfl⟩ := create_of_factory hb
    have hvalid : ∀ x ∈ taken, x.2.validateFor x.1 (config.sources.get x.1) = .ok () := by
      rintro ⟨role, frame⟩ hx
      have hmem : (role, frame) ∈ takings n c.story := by
        rw [htakings]
        exact List.mem_append_left _ hx
      exact valid_of_upload _ acts ht (mem_takings.mp hmem)
    have hcalm : ∀ e ∈ events, e.isCrash = false := by
      intro e he
      by_contra hcrash
      have hround : e.isRound = true := by
        cases e <;> first | rfl | exact absurd rfl hcrash
      have hmem : e ∈ (workFor n c.story).filter Event.isRound := by
        rw [hwork]
        exact List.mem_append_left _ (List.mem_append_right _ (List.mem_filter.mpr ⟨he, hround⟩))
      exact hcrash (hc e (List.mem_filter.mp hmem).1)
    refine ⟨taken, htakings, ?_⟩
    have hhand : ((c.world.inHand n).map fun x => Event.call (.upload x.1 x.2)).filterMap
        Event.frame? = [] := by
      refine List.filterMap_eq_nil_iff.mpr fun e he => ?_
      obtain ⟨_, _, rfl⟩ := List.mem_map.mp he
      rfl
    rw [hpictures, hwork, List.filterMap_append, List.filterMap_append, pictures_opening,
      Event.frames_rounds, hhand, List.nil_append, List.append_nil]
    exact (Loop.rounds_mirror hcreate hr hvalid hcalm).2

/-- The first picture of a session of one pixel, after the first frame of its background. -/
theorem a_frame_becomes_a_picture :
    let config := onePixel
    let background := pixel 9 9 9
    let acts : List (Act (Raster.State ⊕ Unit)) :=
      [.start config (Raster.factory Unit) (.steady 1), .work, .proceed,
        .approach 0 .secondary background, .advance 0, .advance 0, .advance 0, .advance 0,
        .work, .work, .work]
    let c := run (Raster.backend.beside (obliging (.done ()))) acts
    c.terms[0]? = some ⟨config, Raster.factory Unit, .steady 1⟩ ∧
      (∀ e ∈ workFor 0 c.story, e.isCrash = false) ∧ (pictures 0 c.story).length = 1 ∧
      ∃ taken, takings 0 c.story = taken ++ c.world.inHand 0 ∧
        (pictures 0 c.story).map some = (Latest.run config (.steady 1) taken).2 := by
  intro config background acts c
  have ht : c.terms[0]? = some ⟨config, Raster.factory Unit, .steady 1⟩ :=
    term_run (term_of_start config (Raster.factory Unit) (.steady 1) (by decide +kernel)) acts.tail
  have hc : ∀ e ∈ workFor 0 c.story, e.isCrash = false := by decide +kernel
  refine ⟨ht, hc, by decide +kernel, ?_⟩
  exact pictures_are_of_the_latest_frames (obliging (.done ())) acts 0 config (.steady 1) ht hc

end Course

end PictureInPicture
