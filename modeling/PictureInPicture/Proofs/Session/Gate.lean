-- The gate of a session. A composite shows what was uploaded and nothing else, there is one for
-- each upload once the startup policy is met, and none before.
import PictureInPicture.Proofs.Session.Orderly
import PictureInPicture.Proofs.Session.Rounds

namespace PictureInPicture

variable {σ : Type} {b : Backend σ}

/-! ## What has a picture -/

/-- The startup policy is met: the background has a picture, or any source has. -/
def Config.isMet {α : Type} (config : Config α) (r : Residency) : Bool :=
  match config.startup with
  | .strict => r.contains config.layout.background
  | .bestEffort => r.any

namespace Residency

/-- Whatever has a picture in one residency has one in the other. -/
def Within (r r' : Residency) : Prop := ∀ role, r.contains role = true → r'.contains role = true

theorem contains_mark (r : Residency) (role role' : Role) :
    (r.mark role).contains role' = (decide (role = role') || r.contains role') := by
  unfold contains mark
  rw [Both.get_set]
  split <;> simp [*]

theorem any_iff (r : Residency) : r.any = true ↔ ∃ role, r.contains role = true := by
  unfold any contains
  constructor
  · intro h
    rcases Bool.or_eq_true_iff.mp h with h | h
    · exact ⟨.primary, h⟩
    · exact ⟨.secondary, h⟩
  · rintro ⟨role, h⟩
    cases role <;> simp_all [Both.get]

end Residency

/-- A policy that is met stays met when more sources have a picture. -/
theorem Config.isMet_of_within {α : Type} {config : Config α} {r r' : Residency}
    (h : r.Within r') (hr : config.isMet r = true) : config.isMet r' = true := by
  unfold isMet at hr ⊢
  split at hr
  · exact h _ hr
  · obtain ⟨role, hrole⟩ := r.any_iff.mp hr
    exact r'.any_iff.mpr ⟨role, h role hrole⟩

/-- The gate of a session is open when its policy is met. -/
theorem Gate.isOpen_eq_isMet {α : Type} (config : Config α) (r : Residency) :
    Gate.isOpen ⟨config.startup, config.mandatory, r⟩ = config.isMet r := rfl

/-- A plan draws only layers whose source has a picture. -/
theorem Plan.contains_of_drawOps {α : Type} {p : Plan α} {r : Residency}
    {layer : Layer α} (h : .layer layer ∈ p.drawOps r) : r.contains layer.role = true := by
  unfold drawOps at h
  rcases List.mem_append.mp h with h | h
  · split at h
    · rename_i hr
      cases List.mem_singleton.mp h
      exact hr
    · cases h
  · split at h
    · rename_i hr
      rcases List.mem_append.mp h with h | h
      · split at h <;> simp at h
      · cases List.mem_singleton.mp h
        exact hr
    · cases h

/-- The background is the first thing that is drawn, if it has a picture. -/
theorem Plan.head?_drawOps {α : Type} {p : Plan α} {r : Residency}
    (h : r.contains p.background.role = true) :
    (p.drawOps r).head? = some (.layer p.background) := by
  simp [drawOps, h]

namespace Event

/-- What has a picture after an event. -/
def settle (r : Residency) : Event → Residency
  | uploaded role (.done ()) => r.mark role
  | _ => r

/-- The backend is called, or is done with a frame. -/
def isBeat : Event → Bool
  | call _ => true
  | uploaded .. => true
  | _ => false

theorem settle_of_offbeat {e : Event} (he : e.isBeat = false) (r : Residency) :
    settle r e = r := by
  cases e <;> first | rfl | cases he

end Event

/-- The sources that have a picture after all that was done for a session. -/
def resident (events : List Event) : Residency := events.foldl Event.settle .empty

/-- What is neither a call nor the end of an upload gives no picture. -/
theorem settled_of_offbeat {events : List Event} (h : ∀ e ∈ events, e.isBeat = false)
    (r : Residency) : events.foldl Event.settle r = r := by
  induction events with
  | nil => rfl
  | cons e events ih =>
    rw [List.foldl_cons, Event.settle_of_offbeat (h e List.mem_cons_self)]
    exact ih fun e' he' => h e' (List.mem_cons_of_mem _ he')

theorem contains_settled (events : List Event) (r : Residency) (role : Role) :
    (events.foldl Event.settle r).contains role = true ↔
      r.contains role = true ∨ .uploaded role (.done ()) ∈ events := by
  induction events generalizing r with
  | nil => simp
  | cons e events ih =>
    rw [List.foldl_cons, ih, List.mem_cons]
    suffices h : (e.settle r).contains role = true ↔
        r.contains role = true ∨ .uploaded role (.done ()) = e by
      rw [h, or_assoc]
    cases e with
    | uploaded role' outcome =>
      cases outcome with
      | done =>
        simp only [Event.settle, Residency.contains_mark, Bool.or_eq_true, decide_eq_true_eq,
          Event.uploaded.injEq, and_true]
        rw [or_comm]
        exact or_congr_right eq_comm
      | failed | crashed => simp [Event.settle]
    | create | call | rendered | effect | drop => simp [Event.settle]

/-- A source has a picture exactly when one of its uploads went well. -/
theorem contains_resident (events : List Event) (role : Role) :
    (resident events).contains role = true ↔ .uploaded role (.done ()) ∈ events := by
  unfold resident
  rw [contains_settled]
  cases role <;> simp [Residency.contains, Residency.empty, Both.twice, Both.get]

theorem resident_within (events more : List Event) :
    (resident events).Within (resident (events ++ more)) := by
  intro role h
  rw [contains_resident] at h ⊢
  exact List.mem_append_left _ h

/-! ## The beat of a backend -/

/-- Where a backend is between two calls. -/
inductive Beat where
  /-- It waits for a frame. -/
  | resting
  /-- It has a frame, and has not said what became of it. -/
  | uploading (role : Role)
  /-- A composite is to be drawn next. -/
  | due
  deriving DecidableEq

/-- The events that fit where the backend is, and where it is after them. -/
inductive Event.Fits (config : Config Float32) (r : Residency) : Beat → Event → Beat → Prop where
  | upload (role : Role) (frame : Frame) :
      Fits config r .resting (.call (.upload role frame)) (.uploading role)
  | store {role : Role} (hmet : config.isMet (r.mark role) = true) :
      Fits config r (.uploading role) (.uploaded role (.done ())) .due
  | withhold {role : Role} (hmet : config.isMet (r.mark role) = false) :
      Fits config r (.uploading role) (.uploaded role (.done ())) .resting
  | leave {role : Role} {outcome : Outcome Unit} (ho : outcome.isDone = false) :
      Fits config r (.uploading role) (.uploaded role outcome) .resting
  | render (stamp : Stamp) (hmet : config.isMet r = true) :
      Fits config r .due (.call (.render ((Plan.ofConfig config).drawOps r) stamp)) .resting
  | offbeat (beat : Beat) {e : Event} (he : e.isBeat = false) : Fits config r beat e beat

/-- The events fit one after the other. -/
def Paced (config : Config Float32) (r : Residency) (beat : Beat) : List Event → Beat → Prop
  | [], last => beat = last
  | e :: events, last => ∃ next, e.Fits config r beat next ∧
      Paced config (e.settle r) next events last

section

variable {config : Config Float32} {r : Residency} {beat last : Beat}

theorem paced_append {events more : List Event} :
    Paced config r beat (events ++ more) last ↔
      ∃ next, Paced config r beat events next ∧
        Paced config (events.foldl Event.settle r) next more last := by
  induction events generalizing r beat with
  | nil => simp [Paced]
  | cons e events ih =>
    simp only [List.cons_append, Paced, List.foldl_cons, ih]
    constructor
    · rintro ⟨next, he, mid, hevents, hmore⟩
      exact ⟨mid, ⟨next, he, hevents⟩, hmore⟩
    · rintro ⟨mid, ⟨next, he, hevents⟩, hmore⟩
      exact ⟨next, he, mid, hevents, hmore⟩

/-- What is neither a call nor the end of an upload fits anywhere. -/
theorem paced_offbeat {events : List Event} (h : ∀ e ∈ events, e.isBeat = false) :
    Paced config r beat events beat := by
  induction events with
  | nil => rfl
  | cons e events ih =>
    have he := h e List.mem_cons_self
    unfold Paced
    rw [Event.settle_of_offbeat he]
    exact ⟨beat, .offbeat beat he, ih fun e' he' => h e' (List.mem_cons_of_mem _ he')⟩

/-- Events fit whatever is told besides. -/
theorem paced_filter {events : List Event} :
    Paced config r beat (events.filter Event.isRound) last ↔
      Paced config r beat events last := by
  induction events generalizing r beat with
  | nil => rfl
  | cons e events ih =>
    rw [List.filter_cons]
    split
    · simp only [Paced, ih]
    · rename_i he
      have he : e.isBeat = false := by
        cases e <;> first | rfl | exact absurd rfl he
      rw [ih]
      simp only [Paced, Event.settle_of_offbeat he]
      constructor
      · intro h
        exact ⟨beat, .offbeat beat he, h⟩
      · rintro ⟨next, hfit, h⟩
        cases hfit with
        | offbeat => exact h
        | upload | store | withhold | leave | render => cases he

theorem resident_filter (events : List Event) :
    resident (events.filter Event.isRound) = resident events := by
  unfold resident
  generalize Residency.empty = r
  induction events generalizing r with
  | nil => rfl
  | cons e events ih =>
    rw [List.filter_cons]
    split
    · exact ih _
    · rename_i he
      have he : e.isBeat = false := by
        cases e <;> first | rfl | exact absurd rfl he
      rw [ih, List.foldl_cons, Event.settle_of_offbeat he]

/-- A backend that waits for a frame is not asked to draw. -/
theorem calls_of_resting {events : List Event} (h : Paced config r .resting events last)
    (ops : List (DrawOp Float32)) (stamp : Stamp) :
    (calls events).head? ≠ some (.render ops stamp) := by
  induction events with
  | nil => nofun
  | cons e events ih =>
    obtain ⟨next, hfit, hrest⟩ := h
    cases hfit with
    | upload => simp [calls, Event.call?]
    | offbeat _ he =>
      rw [Event.settle_of_offbeat he] at hrest
      have hcalls : calls (e :: events) = calls events := by
        cases e <;> first | rfl | cases he
      rw [hcalls]
      exact ih hrest

/-- A composite that is due is drawn next, and only once. -/
theorem calls_of_due {events : List Event} (h : Paced config r .due events last)
    (hlast : last ≠ .due) :
    ∃ stamp rest, calls events = .render ((Plan.ofConfig config).drawOps r) stamp :: rest ∧
      ∀ ops stamp, rest.head? ≠ some (.render ops stamp) := by
  induction events with
  | nil => exact absurd h.symm hlast
  | cons e events ih =>
    obtain ⟨next, hfit, hrest⟩ := h
    cases hfit with
    | render stamp => exact ⟨stamp, calls events, rfl, calls_of_resting hrest⟩
    | offbeat _ he =>
      rw [Event.settle_of_offbeat he] at hrest
      have hcalls : calls (e :: events) = calls events := by
        cases e <;> first | rfl | cases he
      rw [hcalls]
      exact ih hrest

end

/-! ## Rounds keep the beat -/

namespace Loop

section

variable {config : Config Float32} {l : Loop σ} {role : Role} {frame : Frame}

/-- The loop draws by the plan of its settings, and its gate knows what has a picture. -/
def Tracks (config : Config Float32) (l : Loop σ) (r : Residency) : Prop :=
  l.plan = .ofConfig config ∧ l.gate = ⟨config.startup, config.mandatory, r⟩

theorem offbeat_effects (effects : List Effect) :
    ∀ e ∈ effects.map Event.effect, e.isBeat = false := by
  intro e he
  obtain ⟨effect, _, rfl⟩ := List.mem_map.mp he
  rfl

theorem offbeat_notices (notices : List Notice) :
    ∀ e ∈ notices.map Event.notice, e.isBeat = false := by
  intro e he
  obtain ⟨notice, _, rfl⟩ := List.mem_map.mp he
  rfl

/-- What is told besides may stand at the end. -/
theorem paced_aside {r : Residency} {beat last : Beat} {events more : List Event}
    (h : Paced config r beat events last) (hmore : ∀ e ∈ more, e.isBeat = false) :
    Paced config r beat (events ++ more) last ∧
      (events ++ more).foldl Event.settle r = events.foldl Event.settle r := by
  rw [List.foldl_append, settled_of_offbeat hmore]
  exact ⟨paced_append.mpr ⟨last, h, paced_offbeat hmore⟩, rfl⟩

/-- One composite. -/
theorem paced_drawing {r : Residency} (h : l.Tracks config r) (hg : l.gate.isOpen = true) :
    Paced config r .due (l.drawing b) .resting ∧
      (l.drawing b).foldl Event.settle r = r ∧ (l.drawn b).Tracks config r := by
  obtain ⟨hplan, hgate⟩ := h
  have hmet : config.isMet r = true := by
    rw [← Gate.isOpen_eq_isMet, ← hgate]
    exact hg
  have hquiet : ∀ e ∈ (l.nextReply b).effects.map Event.effect ++
      [.rendered l.clock.sample.1 (l.nextReply b).outcome], e.isBeat = false := by
    intro e he
    rcases List.mem_append.mp he with he | he
    · exact offbeat_effects _ e he
    · rw [List.mem_singleton.mp he]
      rfl
  unfold drawing
  rw [hplan, hgate, List.foldl_cons]
  exact ⟨⟨.resting, .render _ hmet, paced_offbeat hquiet⟩, settled_of_offbeat hquiet r, hplan,
    hgate⟩

/-- A composite is drawn if the policy is met, and otherwise there is none. -/
theorem paced_draws {r : Residency} {i : Inbox} {turn : Turn σ Attempt}
    (h : l.Tracks config r) (hd : Draws b l i turn) :
    Paced config r (if config.isMet r then .due else .resting) turn.events .resting ∧
      turn.events.foldl Event.settle r = r ∧ turn.loop.Tracks config r := by
  have hopen : l.gate.isOpen = config.isMet r := by
    rw [h.2]
    rfl
  cases hd with
  | withhold hg n =>
    rw [← hopen, hg]
    exact ⟨paced_offbeat (offbeat_notices [n]), settled_of_offbeat (offbeat_notices [n]) r, h⟩
  | present hg _ notices =>
    obtain ⟨hpaced, hr, htracks⟩ := paced_drawing (b := b) h hg
    obtain ⟨hmore, hr'⟩ := paced_aside hpaced (offbeat_notices notices)
    rw [← hopen, hg]
    exact ⟨hmore, hr'.trans hr, htracks⟩
  | skip hg _ n =>
    obtain ⟨hpaced, hr, htracks⟩ := paced_drawing (b := b) h hg
    obtain ⟨hmore, hr'⟩ := paced_aside hpaced (offbeat_notices [n])
    rw [← hopen, hg]
    exact ⟨hmore, hr'.trans hr, htracks⟩
  | fail hg | crash hg =>
    rw [← hopen, hg]
    exact paced_drawing h hg

/-- One upload, with the answer of the backend. -/
theorem paced_uploading {r : Residency} {beat : Beat}
    (hfit : (Event.uploaded role (b.upload l.backend role frame).outcome).Fits config r
      (.uploading role) beat) :
    Paced config r (.uploading role) (l.uploading b role frame) beat ∧
      (l.uploading b role frame).foldl Event.settle r =
        (Event.uploaded role (b.upload l.backend role frame).outcome).settle r := by
  have heffects := offbeat_effects (b.upload l.backend role frame).effects
  unfold uploading
  rw [List.foldl_append, settled_of_offbeat heffects]
  refine ⟨paced_append.mpr ⟨_, paced_offbeat heffects, beat, ?_, rfl⟩, rfl⟩
  rw [settled_of_offbeat heffects]
  exact hfit

/-- A round of the loop, from the upload to the composite. -/
theorem paced_processes {r : Residency} {i : Inbox} {turn : Turn σ (Option Attempt)}
    (h : l.Tracks config r) (hp : Processes b l i role frame turn) :
    Paced config r (.uploading role) turn.events .resting ∧
      turn.loop.Tracks config (turn.events.foldl Event.settle r) := by
  -- An upload that went wrong gives no picture.
  have left : (b.upload l.backend role frame).outcome.isDone = false →
      Paced config r (.uploading role) (l.uploading b role frame) .resting ∧
        (l.uploading b role frame).foldl Event.settle r = r := by
    intro ho
    have hsettle : (Event.uploaded role (b.upload l.backend role frame).outcome).settle r = r := by
      revert ho
      cases (b.upload l.backend role frame).outcome <;> first | exact fun _ => rfl | nofun
    have hfit : (Event.uploaded role (b.upload l.backend role frame).outcome).Fits config r
        (.uploading role) .resting := .leave ho
    have hpaced := paced_uploading hfit
    rw [hsettle] at hpaced
    exact hpaced
  cases hp with
  | fail ho | crash ho =>
    obtain ⟨hpaced, hr⟩ := left (by rw [ho]; rfl)
    rw [hr]
    exact ⟨hpaced, h⟩
  | reject ho _ n =>
    obtain ⟨hpaced, hr⟩ := left (by rw [ho]; rfl)
    obtain ⟨hmore, hr'⟩ := paced_aside hpaced (offbeat_notices [n])
    have htracks : (l.uploaded b role frame).Tracks config
        ((l.uploading b role frame ++ [n].map Event.notice).foldl Event.settle r) := by
      rw [hr', hr]
      exact h
    exact ⟨hmore, htracks⟩
  | store ho notices hd =>
    have htracks : (l.admitted b role frame).Tracks config (r.mark role) := by
      refine ⟨h.1, ?_⟩
      unfold admitted
      rw [h.2]
      rfl
    obtain ⟨hdraw, hr, htracks'⟩ := paced_draws htracks hd
    have hfit : (Event.uploaded role (b.upload l.backend role frame).outcome).Fits config r
        (.uploading role) (if config.isMet (r.mark role) then .due else .resting) := by
      rw [ho]
      cases hmet : config.isMet (r.mark role) with
      | true => exact .store hmet
      | false => exact .withhold hmet
    obtain ⟨hup, hr'⟩ := paced_uploading hfit
    obtain ⟨hupload, hr''⟩ := paced_aside hup (offbeat_notices notices)
    have hmark : (l.uploading b role frame ++ notices.map Event.notice).foldl Event.settle r =
        r.mark role := by
      rw [hr'', hr', ho]
      rfl
    dsimp only
    rw [List.foldl_append, hmark, hr]
    refine ⟨paced_append.mpr ⟨_, hupload, ?_⟩, htracks'⟩
    rw [hmark]
    exact hdraw

/-- Round after round, composites keep pace with uploads. -/
theorem paced_rounds {clock : Clock} {backend : σ} {taken : List (Role × Frame)}
    {events : List Event} (h : Rounds b (.ofConfig config clock backend) taken events l) :
    Paced config .empty .resting events .resting ∧ l.Tracks config (resident events) := by
  induction h with
  | rest => exact ⟨rfl, rfl, rfl⟩
  | @turn taken events l role frame turn i _ hp ih =>
    obtain ⟨hpaced, htracks⟩ := ih
    obtain ⟨hturn, htracks'⟩ := paced_processes htracks hp
    have hr : resident (events ++ .call (.upload role frame) :: turn.events) =
        turn.events.foldl Event.settle (resident events) := List.foldl_append
    rw [hr]
    exact ⟨paced_append.mpr ⟨.resting, hpaced, .uploading role, .upload role frame, hturn⟩,
      htracks'⟩

end

end Loop

namespace Course

variable {n : Nat} {t : Terms σ}

/-! ## Every session keeps the beat -/

theorem offbeat_opening (t : Terms σ) : ∀ e ∈ t.opening, e.isBeat = false := by
  intro e he
  exact Loop.offbeat_effects _ e (List.mem_filter.mp he).1

/-- What is done for a session fits, and nothing is left due. -/
theorem paced_run (b : Backend σ) (acts : List (Act σ))
    (ht : (run b acts).terms[n]? = some t) :
    ∃ last, last ≠ .due ∧
      Paced t.config .empty .resting (workFor n (run b acts).story) last := by
  have hopening : Paced t.config .empty .resting t.opening .resting :=
    paced_offbeat (offbeat_opening t)
  suffices h : ∃ last, last ≠ .due ∧
      Paced t.config .empty .resting ((workFor n (run b acts).story).filter Event.isRound) last by
    obtain ⟨last, hlast, hpaced⟩ := h
    exact ⟨last, hlast, paced_filter.mp hpaced⟩
  rcases rounds_of_run b acts ht with ⟨_, _, hwork | hwork⟩ |
    ⟨backend, taken, events, l, _, hrounds, _, hwork⟩
  · exact ⟨.resting, nofun, by rw [hwork]; rfl⟩
  · exact ⟨.resting, nofun, by rw [hwork]; exact hopening⟩
  · have hevents := (Loop.paced_rounds hrounds).1
    have hdone : Paced t.config .empty .resting (t.opening ++ events.filter Event.isRound)
        .resting := by
      refine paced_append.mpr ⟨.resting, hopening, ?_⟩
      rw [settled_of_offbeat (offbeat_opening t)]
      exact paced_filter.mpr hevents
    -- The frame in hand is the last thing that the backend was called for.
    have hhand : (run b acts).world.inHand n = [] ∨
        ∃ role frame, (run b acts).world.inHand n = [(role, frame)] := by
      unfold World.inHand
      split
      · split
        · exact .inr ⟨_, _, rfl⟩
        · exact .inl rfl
      · exact .inl rfl
    rw [hwork]
    rcases hhand with hhand | ⟨role, frame, hhand⟩
    · exact ⟨.resting, nofun, by rw [hhand, List.map_nil, List.append_nil]; exact hdone⟩
    · refine ⟨.uploading role, nofun, ?_⟩
      rw [hhand]
      exact paced_append.mpr ⟨.resting, hdone, .uploading role, .upload role frame, rfl⟩

/-- The gate of the thread knows what has a picture. -/
theorem tracks_run (b : Backend σ) (acts : List (Act σ))
    (ht : (run b acts).terms[n]? = some t) {active : Active σ}
    (ha : (run b acts).world.active? = some active) (hn : active.session = n) :
    active.loop.Tracks t.config (resident (workFor n (run b acts).story)) := by
  obtain ⟨backend, taken, events, _, hrounds, _, hwork⟩ :=
    goes_of_active ((staged_run b acts).stands n t ht) ha hn
  have hsame : resident (workFor n (run b acts).story) = resident events := by
    rw [← resident_filter, hwork, ← resident_filter events]
    unfold resident
    rw [List.foldl_append, List.foldl_append, settled_of_offbeat (offbeat_opening t)]
    generalize (events.filter Event.isRound).foldl Event.settle .empty = r
    -- The frame in hand has given no picture yet.
    induction (run b acts).world.inHand n with
    | nil => rfl
    | cons x _ ih => exact ih
  rw [hsame]
  exact (Loop.paced_rounds hrounds).2

section

variable {acts : List (Act σ)} (ht : (run b acts).terms[n]? = some t)

include ht

/-- What comes where, in the work for a session. -/
theorem fits_of_run {e : Event} {pre post : List Event}
    (hwork : workFor n (run b acts).story = pre ++ e :: post) :
    ∃ beat next last, last ≠ .due ∧ e.Fits t.config (resident pre) beat next ∧
      Paced t.config (e.settle (resident pre)) next post last := by
  obtain ⟨last, hlast, hpaced⟩ := paced_run b acts ht
  rw [hwork] at hpaced
  obtain ⟨beat, _, next, hfit, hrest⟩ := paced_append.mp hpaced
  exact ⟨beat, next, last, hlast, hfit, hrest⟩

theorem render_of_run {ops : List (DrawOp Float32)} {stamp : Stamp} {pre post : List Event}
    (hwork : workFor n (run b acts).story = pre ++ .call (.render ops stamp) :: post) :
    ops = (Plan.ofConfig t.config).drawOps (resident pre) ∧
      t.config.isMet (resident pre) = true := by
  obtain ⟨_, _, _, _, hfit, _⟩ := fits_of_run ht hwork
  cases hfit with
  | render _ hmet => exact ⟨rfl, hmet⟩
  | offbeat _ he => cases he

theorem calls_of_stored {role : Role} {pre post : List Event}
    (hwork : workFor n (run b acts).story = pre ++ .uploaded role (.done ()) :: post)
    (hmet : t.config.isMet ((resident pre).mark role) = true) :
    ∃ stamp rest,
      calls post = .render ((Plan.ofConfig t.config).drawOps ((resident pre).mark role)) stamp ::
        rest ∧
      ∀ ops stamp, rest.head? ≠ some (.render ops stamp) := by
  obtain ⟨_, _, last, hlast, hfit, hpost⟩ := fits_of_run ht hwork
  cases hfit with
  | store => exact calls_of_due hpost hlast
  | withhold hno => rw [hmet] at hno; cases hno
  | leave ho => cases ho
  | offbeat _ he => cases he

theorem calls_of_left {role : Role} {outcome : Outcome Unit} {pre post : List Event}
    (hwork : workFor n (run b acts).story = pre ++ .uploaded role outcome :: post)
    (hno : outcome = .done () → t.config.isMet ((resident pre).mark role) = false)
    (ops : List (DrawOp Float32)) (stamp : Stamp) :
    (calls post).head? ≠ some (.render ops stamp) := by
  obtain ⟨_, _, last, hlast, hfit, hpost⟩ := fits_of_run ht hwork
  cases hfit with
  | store hmet => rw [hno rfl] at hmet; cases hmet
  | withhold | leave => exact calls_of_resting hpost ops stamp
  | offbeat _ he => cases he

end

/-- Whatever producers, owner and thread do in any order, and whatever a backend answers: a
composite of a session is drawn from the sources that were uploaded well in this session before,
so each of its layers has a picture, and the startup policy is met. Under the strict policy the
background was uploaded before, and is the first thing that is drawn. An upload that went well is
followed by one composite before the backend is called again if the policy is met by then, and
no other upload is. The gate of the thread is open exactly when the policy is met, and a policy
that was met stays met. -/
theorem composites_keep_pace_with_uploads (b : Backend σ) (acts : List (Act σ)) (n : Nat)
    (t : Terms σ) (ht : (run b acts).terms[n]? = some t) :
    let c := run b acts
    let work := workFor n c.story
    let plan := Plan.ofConfig t.config
    (∀ ops stamp pre post, work = pre ++ .call (.render ops stamp) :: post →
      ops = plan.drawOps (resident pre) ∧
      (∀ layer, .layer layer ∈ ops → .uploaded layer.role (.done ()) ∈ pre) ∧
      t.config.isMet (resident pre) = true ∧
      (t.config.startup = .strict →
        .uploaded t.config.layout.background (.done ()) ∈ pre ∧
          ops.head? = some (.layer plan.background))) ∧
    (∀ role pre post, work = pre ++ .uploaded role (.done ()) :: post →
      t.config.isMet ((resident pre).mark role) = true →
        ∃ stamp rest,
          calls post = .render (plan.drawOps ((resident pre).mark role)) stamp :: rest ∧
            ∀ ops stamp, rest.head? ≠ some (.render ops stamp)) ∧
    (∀ role outcome pre post, work = pre ++ .uploaded role outcome :: post →
      (outcome = .done () → t.config.isMet ((resident pre).mark role) = false) →
        ∀ ops stamp, (calls post).head? ≠ some (.render ops stamp)) ∧
    (∀ active, c.world.active? = some active → active.session = n →
      active.loop.gate.residency = resident work ∧
        active.loop.gate.isOpen = t.config.isMet (resident work)) ∧
    ∀ more, t.config.isMet (resident work) = true →
      t.config.isMet (resident (workFor n (run b (acts ++ more)).story)) = true := by
  intro c work plan
  refine ⟨fun ops stamp pre post hwork => ?_, fun role pre post hwork hmet => ?_,
    fun role outcome pre post hwork hno => ?_, fun active ha hn => ?_, fun more hmet => ?_⟩
  · obtain ⟨rfl, hmet⟩ := render_of_run ht hwork
    refine ⟨rfl, fun layer hlayer => ?_, hmet, fun hstrict => ?_⟩
    · exact (contains_resident pre layer.role).mp (Plan.contains_of_drawOps hlayer)
    · unfold Config.isMet at hmet
      rw [hstrict] at hmet
      exact ⟨(contains_resident pre _).mp hmet, Plan.head?_drawOps hmet⟩
  · exact calls_of_stored ht hwork hmet
  · exact calls_of_left ht hwork hno
  · obtain ⟨_, hgate⟩ := tracks_run b acts ht ha hn
    rw [hgate]
    exact ⟨rfl, Gate.isOpen_eq_isMet t.config _⟩
  · obtain ⟨new, hstory⟩ := story_run b acts more
    rw [hstory, workFor_append]
    exact Config.isMet_of_within (resident_within _ _) hmet

/-- The overlay comes first, and nothing is drawn for it. The background comes later, with the
first composite. -/
theorem an_overlay_waits_for_its_background :
    let b := obliging (.done ())
    let submit : Nat → Role → List (Act Unit) := fun k role =>
      [.approach 0 role (pixel 9 9 9), .advance k, .advance k, .advance k, .advance k,
        .work, .work, .work]
    let acts := [.start onePixel (fun _ => ⟨.done (), []⟩) (.steady 1), .work, .proceed] ++
      submit 0 .primary ++ submit 1 .secondary
    let work := workFor 0 (run b acts).story
    (run b acts).terms[0]? = some ⟨onePixel, fun _ => ⟨.done (), []⟩, .steady 1⟩ ∧
      (takings 0 (run b acts).story).map Prod.fst = [.primary, .secondary] ∧
      (calls work).length = 3 ∧
      ∀ ops stamp pre post, work = pre ++ .call (.render ops stamp) :: post →
        .uploaded .secondary (.done ()) ∈ pre := by
  intro b submit acts work
  have ht : (run b acts).terms[0]? = some ⟨onePixel, fun _ => ⟨.done (), []⟩, .steady 1⟩ :=
    term_run (term_of_start onePixel _ (.steady 1) (by decide +kernel)) acts.tail
  refine ⟨ht, by decide +kernel, by decide +kernel, fun ops stamp pre post hwork => ?_⟩
  have hstrict : onePixel.startup = .strict := by decide +kernel
  exact ((composites_keep_pace_with_uploads b acts 0 _ ht).1 ops stamp pre post hwork).2.2.2
    hstrict |>.1

end Course

end PictureInPicture
