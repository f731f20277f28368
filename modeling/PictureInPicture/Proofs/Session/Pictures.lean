-- What all the pictures of a session have in common. A property that the calls of a backend give
-- their pictures is one of every picture that the session shows. A rehearsal calls the backend
-- behind it or leaves it alone, so it shows no other pictures than this backend does.
import PictureInPicture.Rehearsal
import PictureInPicture.Proofs.Raster.Opacity
import PictureInPicture.Proofs.Session.LatestFrames

namespace PictureInPicture

variable {σ : Type} {b : Backend σ} {config : Config Float32}
  {P : σ → Prop} {Q : OutputFrame → Prop}

/-! ## What calls keep -/

/-- The state that a call ends in has the one property, and what it hands on the other one. -/
structure Reply.Keeps {β : Type} (r : Reply σ β) (P : σ → Prop) (Q : OutputFrame → Prop) :
    Prop where
  state : P r.state
  pictures : ∀ picture, .frame picture ∈ r.effects → Q picture

/-- The calls of a session with these settings keep `P` for the states of its backend, and `Q` holds
for the pictures that they hand on. -/
structure Backend.Keeps (b : Backend σ) (config : Config Float32) (P : σ → Prop)
    (Q : OutputFrame → Prop) : Prop where
  upload : ∀ s, P s → ∀ role frame, (b.upload s role frame).Keeps P Q
  render : ∀ s, P s → ∀ residency stamp,
    (b.render s ((Plan.ofConfig config).drawOps residency) stamp).Keeps P Q

/-- A call that hands on no picture. -/
theorem Reply.Keeps.of_dark {β : Type} {r : Reply σ β} (hp : P r.state) (he : r.effects = []) :
    r.Keeps P Q where
  state := hp
  pictures picture hmem := by
    rw [he] at hmem
    cases hmem

/-! ## Rounds of a loop -/

/-- Every picture among some events has a property. -/
def Depicts (Q : OutputFrame → Prop) (events : List Event) : Prop :=
  ∀ picture, .effect (.frame picture) ∈ events → Q picture

theorem depicts_append {events more : List Event} :
    Depicts Q (events ++ more) ↔ Depicts Q events ∧ Depicts Q more := by
  simp only [Depicts, List.mem_append, or_imp, forall_and]

theorem depicts_cons {e : Event} {events : List Event} (he : e.frame? = none)
    (h : Depicts Q events) : Depicts Q (e :: events) := by
  intro picture hmem
  rcases List.mem_cons.mp hmem with rfl | hmem
  · cases he
  · exact h picture hmem

theorem depicts_nil : Depicts Q [] := fun _ hmem => nomatch hmem

theorem depicts_filter {events : List Event} (f : Event → Bool) (h : Depicts Q events) :
    Depicts Q (events.filter f) :=
  fun picture hmem => h picture (List.mem_filter.mp hmem).1

theorem depicts_effects {effects : List Effect}
    (h : ∀ picture, .frame picture ∈ effects → Q picture) : Depicts Q (effects.map .effect) := by
  intro picture hmem
  obtain ⟨effect, heffect, heq⟩ := List.mem_map.mp hmem
  cases heq
  exact h picture heffect

theorem depicts_notices (notices : List Notice) : Depicts Q (notices.map .notice) := by
  intro picture hmem
  obtain ⟨notice, _, heq⟩ := List.mem_map.mp hmem
  cases heq

theorem forall_pictures {n : Nat} {story : List Happening} (h : Depicts Q (workFor n story)) :
    ∀ picture ∈ pictures n story, Q picture := by
  intro picture hmem
  obtain ⟨event, hevent, hpicture⟩ := List.mem_filterMap.mp hmem
  cases event with
  | effect effect =>
    cases effect with
    | frame =>
      cases hpicture
      exact h picture hevent
    | notice | surface => cases hpicture
  | create | call | uploaded | rendered | drop => cases hpicture

namespace Loop

/-- The loop draws what its settings say, with a backend of the property. -/
structure Holds (l : Loop σ) (config : Config Float32) (P : σ → Prop) : Prop where
  plan : l.plan = .ofConfig config
  backend : P l.backend

variable {l : Loop σ} {i : Inbox} {role : Role} {frame : Frame}

theorem keeps_nextReply (h : b.Keeps config P Q) (hl : l.Holds config P) :
    (l.nextReply b).Keeps P Q := by
  unfold nextReply
  rw [hl.plan]
  exact h.render _ hl.backend _ _

theorem depicts_drawing (h : b.Keeps config P Q) (hl : l.Holds config P) :
    Depicts Q (l.drawing b) := by
  refine depicts_cons rfl (depicts_append.mpr ⟨?_, depicts_cons rfl depicts_nil⟩)
  exact depicts_effects (keeps_nextReply h hl).pictures

theorem draws_holds (h : b.Keeps config P Q) (hl : l.Holds config P) {turn : Turn σ Attempt}
    (hd : Draws b l i turn) : turn.loop.Holds config P ∧ Depicts Q turn.events := by
  have hdrawn : (l.drawn b).Holds config P := ⟨hl.plan, (keeps_nextReply h hl).state⟩
  have hpictures := depicts_drawing h hl
  cases hd with
  | withhold _ n => exact ⟨hl, depicts_notices [n]⟩
  | present _ _ notices => exact ⟨hdrawn, depicts_append.mpr ⟨hpictures, depicts_notices notices⟩⟩
  | skip _ _ n => exact ⟨hdrawn, depicts_append.mpr ⟨hpictures, depicts_notices [n]⟩⟩
  | fail | crash => exact ⟨hdrawn, hpictures⟩

theorem depicts_uploading (h : b.Keeps config P Q) (hl : l.Holds config P) :
    Depicts Q (l.uploading b role frame) :=
  depicts_append.mpr ⟨depicts_effects (h.upload _ hl.backend role frame).pictures,
    depicts_cons rfl depicts_nil⟩

/-- A turn of the loop keeps what its calls keep. -/
theorem processes_holds (h : b.Keeps config P Q) (hl : l.Holds config P)
    {turn : Turn σ (Option Attempt)} (hp : Processes b l i role frame turn) :
    turn.loop.Holds config P ∧ Depicts Q turn.events := by
  have hstate : P (b.upload l.backend role frame).state := (h.upload _ hl.backend role frame).state
  have huploaded : (l.uploaded b role frame).Holds config P := ⟨hl.plan, hstate⟩
  have hpictures : Depicts Q (l.uploading b role frame) := depicts_uploading h hl
  cases hp with
  | fail | crash => exact ⟨huploaded, hpictures⟩
  | reject _ _ n => exact ⟨huploaded, depicts_append.mpr ⟨hpictures, depicts_notices [n]⟩⟩
  | store _ notices hd =>
    have hadmitted : (l.admitted b role frame).Holds config P := ⟨hl.plan, hstate⟩
    obtain ⟨hnext, hmore⟩ := draws_holds h hadmitted hd
    exact ⟨hnext,
      depicts_append.mpr ⟨depicts_append.mpr ⟨hpictures, depicts_notices notices⟩, hmore⟩⟩

theorem rounds_holds (h : b.Keeps config P Q) {start : Loop σ} (hs : start.Holds config P)
    {taken : List (Role × Frame)} {events : List Event} (hr : Rounds b start taken events l) :
    l.Holds config P ∧ Depicts Q events := by
  induction hr with
  | rest => exact ⟨hs, depicts_nil⟩
  | turn i _ hp ih =>
    obtain ⟨hnext, hmore⟩ := processes_holds h ih.1 hp
    exact ⟨hnext, depicts_append.mpr ⟨ih.2, depicts_cons rfl hmore⟩⟩

end Loop

/-! ## Whole sessions -/

namespace Course

variable {n : Nat} {t : Terms σ}

/-- Every session was asked for with settings that are valid. -/
theorem valid_of_run (b : Backend σ) (acts : List (Act σ))
    (ht : (run b acts).terms[n]? = some t) : t.config.validate = .ok () := by
  suffices h : ∀ t ∈ (run b acts).terms, t.config.validate = .ok () from
    h t (List.mem_of_getElem? ht)
  refine run_induction (P := fun c => ∀ t ∈ c.terms, t.config.validate = .ok ()) b acts ?_ ?_
  · intro t hmem
    cases hmem
  · intro c c' h hm t hmem
    cases hm with
    | owner hm =>
      cases hm with
      | startUnheard _ _ hv | start _ _ hv =>
        rcases List.mem_append.mp hmem with hmem | hmem
        · exact h t hmem
        · cases List.mem_singleton.mp hmem
          exact hv
      | _ => exact h t hmem
    | _ => exact h t hmem

/-- Whatever producers, thread and owner do, the pictures of a session have the property that the
calls on its backend give them, if its factory makes backends that they can begin with. -/
theorem pictures_of_run (acts : List (Act σ)) (ht : (run b acts).terms[n]? = some t)
    (h : b.Keeps t.config P Q)
    (hfactory : ∀ s, (t.factory t.config).outcome = .done s → P s)
    (hopening : ∀ picture, .frame picture ∈ (t.factory t.config).effects → Q picture) :
    ∀ picture ∈ pictures n (run b acts).story, Q picture := by
  suffices hdepicts : Depicts Q ((workFor n (run b acts).story).filter Event.isRound) from
    forall_pictures fun picture hmem => hdepicts picture (List.mem_filter.mpr ⟨hmem, rfl⟩)
  have hopened : Depicts Q t.opening := depicts_filter _ (depicts_effects hopening)
  rcases rounds_of_run b acts ht with ⟨_, _, hwork | hwork⟩ |
    ⟨backend, taken, events, l, hb, hr, _, hwork⟩
  · rw [hwork]
    exact depicts_nil
  · rw [hwork]
    exact hopened
  · have hstart : (Loop.ofConfig t.config t.clock backend).Holds t.config P :=
      ⟨rfl, hfactory backend hb⟩
    rw [hwork]
    refine depicts_append.mpr
      ⟨depicts_append.mpr ⟨hopened, depicts_filter _ (Loop.rounds_holds h hstart hr).2⟩, ?_⟩
    intro picture hmem
    obtain ⟨_, _, heq⟩ := List.mem_map.mp hmem
    cases heq

end Course

/-! ## Pictures that are drawn in memory -/

theorem Raster.State.effects_upload (s : State) (role : Role) (frame : Frame) :
    (s.upload role frame).effects = [] := by
  unfold upload
  dsimp only
  split
  · rfl
  · split <;> rfl

/-- The backend that draws in memory hands on solid pictures. -/
theorem Raster.keeps (hc : config.validate = .ok ()) :
    backend.Keeps config (State.Reached config) (·.IsSolid config.output) where
  upload s hs role frame := .of_dark (hs.upload role frame) (State.effects_upload s role frame)
  render _ hs _ stamp := ⟨hs.render _ stamp, fun _ => State.isSolid_of_picture hc hs⟩

/-! ## Pictures of a device -/

namespace Gpu

variable {δ : Type} {d : Device δ}

theorem State.effects_upload (s : State δ) (role : Role) (frame : Frame) :
    (s.upload d role frame).effects = [] := by
  unfold upload uploadTextures
  split
  · rfl
  · dsimp only
    split <;> rfl

/-- A device shows its pictures itself. -/
theorem State.no_picture_of_render (s : State δ) (ops : List (DrawOp Float32)) (stamp : Stamp)
    (picture : OutputFrame) : .frame picture ∉ (s.render d ops stamp).effects := by
  unfold render
  dsimp only
  cases (d.acquire s.device).2 with
  | lost | outdated | timeout | unknown => simp
  | good | suboptimal | foreign =>
    unfold drawInto
    dsimp only
    split <;> simp

theorem keeps (d : Device δ) (config : Config Float32) (Q : OutputFrame → Prop) :
    (backend d).Keeps config (fun _ => True) Q where
  upload s _ role frame := .of_dark trivial (State.effects_upload s role frame)
  render s _ _ stamp :=
    ⟨trivial, fun picture h => absurd h (State.no_picture_of_render s _ stamp picture)⟩

end Gpu

/-! ## Rehearsals -/

namespace Rehearsal

theorem keeps_mapState {τ β : Type} {f : σ → τ} {r : Reply σ β} {R : τ → Prop}
    (h : r.Keeps (fun s => R (f s)) Q) : (mapState f r).Keeps R Q :=
  ⟨h.state, h.pictures⟩

/-- The backend of an engine without cues. -/
def Engine.backend : Backend Engine := ⟨Engine.upload, Engine.render⟩

/-- What the calls of an engine keep is kept under all cues. A cue leaves the call out, and the
engine stays as it was. -/
theorem keeps_of_engine {R : Engine → Prop} (h : Engine.backend.Keeps config R Q) :
    backend.Keeps config (fun c => R c.engine) Q where
  upload c hc role frame := by
    unfold backend Cast.upload
    dsimp only
    split
    · exact keeps_mapState (h.upload c.engine hc role frame)
    all_goals exact .of_dark hc rfl
  render c hc residency stamp := by
    unfold backend Cast.render
    dsimp only
    split
    · exact keeps_mapState (h.render c.engine hc residency stamp)
    all_goals exact .of_dark hc rfl

/-- An engine that draws in memory is in a state that its backend comes to. -/
def Engine.Reached (config : Config Float32) : Engine → Prop
  | .raster s => s.Reached config
  | _ => True

theorem Engine.keeps (hc : config.validate = .ok ()) :
    Engine.backend.Keeps config (Engine.Reached config) (·.IsSolid config.output) := by
  have hraster := Raster.keeps hc
  have hdevice := Gpu.keeps Gpu.Scripted.device config (·.IsSolid config.output)
  constructor
  · intro e he role frame
    cases e with
    | idle => exact .of_dark he rfl
    | raster s => exact keeps_mapState (hraster.upload s he role frame)
    | device s => exact keeps_mapState (hdevice.upload s trivial role frame)
  · intro e he residency stamp
    cases e with
    | idle => exact .of_dark he rfl
    | raster s => exact keeps_mapState (hraster.render s he residency stamp)
    | device s => exact keeps_mapState (hdevice.render s trivial residency stamp)

variable {opening : Opening} {uploads : List UploadCue} {renders : List RenderCue}

theorem reached_of_engine {e : Engine} (h : (opening.engine config).outcome = .done e) :
    e.Reached config := by
  cases opening with
  | idle | device =>
    cases h
    trivial
  | raster =>
    unfold Opening.engine at h
    dsimp only at h
    split at h
    · rename_i state hstate
      cases h
      exact .create hstate
    · cases h
  | noWindow | fails | crashes => cases h

theorem reached_of_factory {c : Cast}
    (h : (opening.factory uploads renders config).outcome = .done c) :
    c.engine.Reached config := by
  unfold Opening.factory at h
  dsimp only at h
  split at h
  · rename_i e he
    cases h
    exact reached_of_engine he
  · cases h
  · cases h

/-- No picture is handed on before the first call. -/
theorem no_picture_of_factory (picture : OutputFrame) :
    .frame picture ∉ (opening.factory uploads renders config).effects := by
  change _ ∉ (opening.engine config).effects
  cases opening with
  | idle | raster | noWindow | fails | crashes => simp [Opening.engine]
  | device => simp [Opening.engine, Gpu.State.create]

end Rehearsal

/-- However a session is rehearsed, and whatever producers, thread and owner do, its receiver gets
pictures of the whole output, with nothing that shines through. -/
theorem Course.rehearsed_pictures_are_solid (acts : List (Act Rehearsal.Cast)) {n : Nat}
    {clock : Clock} {opening : Rehearsal.Opening} {uploads : List Rehearsal.UploadCue}
    {renders : List Rehearsal.RenderCue}
    (ht : (run Rehearsal.backend acts).terms[n]? =
      some ⟨config, opening.factory uploads renders, clock⟩) :
    ∀ picture ∈ pictures n (run Rehearsal.backend acts).story, picture.IsSolid config.output := by
  have hvalid : config.validate = .ok () := valid_of_run Rehearsal.backend acts ht
  refine pictures_of_run acts ht (Rehearsal.keeps_of_engine (Rehearsal.Engine.keeps hvalid)) ?_ ?_
  · exact fun _ => Rehearsal.reached_of_factory
  · exact fun picture h => absurd h (Rehearsal.no_picture_of_factory picture)

end PictureInPicture
