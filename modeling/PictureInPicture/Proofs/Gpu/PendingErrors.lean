-- Errors of the graphics device. The device raises errors by the way, and whoever watches it can
-- list all of them. What a backend keeps is the first error that it has not reported, so no picture
-- is shown while there is one, and none is lost while no frame can be drawn.
import PictureInPicture.Proofs.Gpu.Agreement

namespace PictureInPicture.Gpu

/-! ## Devices that are watched -/

/-- A call on a device. -/
inductive DeviceCall where
  | acquire
  | configure (surface : SurfaceConfig)
  | write (write : TextureWrite)
  | submit (status : SurfaceStatus) (prepared : Prepared Float32)

/-- A device with the calls that were made on it and the errors that it has raised, in order. -/
structure Watched (δ : Type) where
  device : δ
  calls : List DeviceCall
  raised : List String

namespace Watched

variable {δ : Type}

def start (device : δ) : Watched δ := ⟨device, [], []⟩

/-- Notes a call and what it has led to. -/
def note (w : Watched δ) (call : DeviceCall) (device : δ) (raised : List String) : Watched δ :=
  ⟨device, w.calls ++ [call], w.raised ++ raised⟩

end Watched

/-- A device whose calls and errors are noted. It answers like the device itself. -/
def Device.watched {δ : Type} (d : Device δ) : Device (Watched δ) where
  acquire w :=
    let (device, status) := d.acquire w.device
    (w.note .acquire device [], status)
  configure w surface :=
    let (device, raised) := d.configure w.device surface
    (w.note (.configure surface) device raised, raised)
  write w texture :=
    let (device, raised) := d.write w.device texture
    (w.note (.write texture) device raised, raised)
  submit w status prepared :=
    let (device, raised) := d.submit w.device status prepared
    (w.note (.submit status prepared) device raised, raised)

/-- The surface gives a frame, be it one that cannot be drawn to. -/
def SurfaceStatus.givesFrame : SurfaceStatus → Bool
  | good | suboptimal | foreign => true
  | _ => false

namespace State

variable {α δ : Type} {d : Device δ} {c : Config α}

/-- A drawing got a frame, and its answer is an error. -/
def Reports (d : Device δ) (s : State δ) (ops : List (DrawOp Float32)) (stamp : Stamp) : Prop :=
  (d.acquire s.device).2.givesFrame = true ∧
    ∃ fault, (s.render d ops stamp).outcome = .failed fault

/-- The states that a watched device comes to by uploads and drawings, each with the number of
errors that had been raised when one was reported last. -/
inductive Told (d : Device δ) (c : Config α) : State (Watched δ) → Nat → Prop where
  | create (device : δ) : Told d c (create c (.start device)).1 0
  | upload {s : State (Watched δ)} {n : Nat} (h : Told d c s n) (role : Role) (frame : Frame) :
      Told d c (s.upload d.watched role frame).state n
  | render {s : State (Watched δ)} {n : Nat} (h : Told d c s n) {ops : List (DrawOp Float32)}
      {stamp : Stamp} (hquiet : ¬ Reports d.watched s ops stamp) :
      Told d c (s.render d.watched ops stamp).state n
  | report {s : State (Watched δ)} {n : Nat} (h : Told d c s n) {ops : List (DrawOp Float32)}
      {stamp : Stamp} (hreport : Reports d.watched s ops stamp) :
      Told d c (s.render d.watched ops stamp).state
        (s.render d.watched ops stamp).state.device.raised.length

/-- The errors that were raised after the first `n` of them. -/
def since (s : State (Watched δ)) (n : Nat) : List String := s.device.raised.drop n

/-- The state of the device that is watched. -/
def unwatched (s : State (Watched δ)) : State δ := { s with device := s.device.device }

variable {s : State (Watched δ)} {n : Nat}

/-! ## Watching changes nothing -/

/-- The answer of a device that is watched is that of the device itself. -/
structure Agree {β : Type} (watched : Reply (State (Watched δ)) β) (own : Reply (State δ) β) :
    Prop where
  state : watched.state.unwatched = own.state
  outcome : watched.outcome = own.outcome
  effects : watched.effects = own.effects

theorem writeAll_watched (w : Watched δ) (writes : List TextureWrite) :
    (writeAll d.watched w writes).1.device = (writeAll d w.device writes).1 ∧
      (writeAll d.watched w writes).2 = (writeAll d w.device writes).2 := by
  induction writes generalizing w with
  | nil => exact ⟨rfl, rfl⟩
  | cons write writes ih =>
    obtain ⟨hdevice, hraised⟩ := ih (d.watched.write w write).1
    unfold writeAll
    refine ⟨hdevice, ?_⟩
    dsimp only
    rw [hraised]
    rfl

theorem uploadTextures_watched (s : State (Watched δ)) (role : Role) (frame : Frame) :
    Agree (s.uploadTextures d.watched role frame) (s.unwatched.uploadTextures d role frame) := by
  obtain ⟨hdevice, hraised⟩ := writeAll_watched (d := d) s.device
    ((s.textures.get role).upload role frame).1
  have hstate : ∀ kept, State.mk s.declared s.textures s.surface kept _ = ⟨_, _, _, kept, _⟩ :=
    fun kept => congrArg (State.mk _ _ _ kept) hdevice
  unfold uploadTextures
  dsimp only [unwatched]
  rw [hraised]
  rcases ((s.textures.get role).upload role frame).2 with (fault | crash) | _
  · exact ⟨hstate _, rfl, rfl⟩
  · exact ⟨hstate _, rfl, rfl⟩
  · exact ⟨hstate _, rfl, rfl⟩

theorem upload_watched (s : State (Watched δ)) (role : Role) (frame : Frame) :
    Agree (s.upload d.watched role frame) (s.unwatched.upload d role frame) := by
  unfold upload
  dsimp only [unwatched]
  cases frame.validateFor role (s.declared.get role) with
  | error fault => exact ⟨rfl, rfl, rfl⟩
  | ok => exact uploadTextures_watched s role frame

theorem drawInto_watched (s : State (Watched δ)) (status : SurfaceStatus)
    (ops : List (DrawOp Float32)) (stamp : Stamp) :
    Agree (s.drawInto d.watched status ops stamp) (s.unwatched.drawInto d status ops stamp) := by
  unfold drawInto
  dsimp only [unwatched, Device.watched]
  cases keepFirst s.kept (d.submit s.device.device status (prepare ops)).2 with
  | some error => exact ⟨rfl, rfl, rfl⟩
  | none => exact ⟨rfl, rfl, rfl⟩

theorem render_watched (s : State (Watched δ)) (ops : List (DrawOp Float32)) (stamp : Stamp) :
    Agree (s.render d.watched ops stamp) (s.unwatched.render d ops stamp) := by
  have hdrawn := fun status => drawInto_watched (d := d)
    { s with device := (d.watched.acquire s.device).1 } status ops stamp
  unfold render
  dsimp only [unwatched, Device.watched]
  cases (d.acquire s.device.device).2 with
  | lost | outdated | timeout | unknown => exact ⟨rfl, rfl, rfl⟩
  | good | suboptimal | foreign =>
    exact ⟨(hdrawn _).state, (hdrawn _).outcome, congrArg _ (hdrawn _).effects⟩

/-- Every state of a device is one of the device that is watched. -/
theorem told_of_reached {t : State δ} (h : Reached d c t) :
    ∃ (s : State (Watched δ)) (n : Nat), Told d c s n ∧ s.unwatched = t := by
  induction h with
  | create device => exact ⟨_, 0, .create device, rfl⟩
  | upload _ role frame ih =>
    obtain ⟨s, n, htold, rfl⟩ := ih
    exact ⟨_, n, htold.upload role frame, (upload_watched s role frame).state⟩
  | render _ ops stamp ih =>
    obtain ⟨s, n, htold, rfl⟩ := ih
    have hstate := (render_watched (d := d) s ops stamp).state
    by_cases hreport : Reports d.watched s ops stamp
    · exact ⟨_, _, htold.report hreport, hstate⟩
    · exact ⟨_, n, htold.render hreport, hstate⟩

/-! ## The error that is kept -/

/-- The kept error is the first of those that are not reported yet. -/
structure Tells (s : State (Watched δ)) (n : Nat) : Prop where
  bound : n ≤ s.device.raised.length
  kept : s.kept = (s.since n).head?

theorem keepFirst_head? (xs ys : List String) : keepFirst xs.head? ys = (xs ++ ys).head? :=
  List.head?_append.symm

theorem since_of_raised {t : State (Watched δ)} {more : List String}
    (hn : n ≤ s.device.raised.length) (hraised : t.device.raised = s.device.raised ++ more) :
    t.since n = s.since n ++ more := by
  unfold since
  rw [hraised, List.drop_append_of_le_length hn]

theorem since_length (s : State (Watched δ)) : s.since s.device.raised.length = [] :=
  List.drop_length

/-- Errors that are raised and kept, if they are the first, keep the rule. -/
theorem Tells.raise {t : State (Watched δ)} {more : List String} (h : s.Tells n)
    (hraised : t.device.raised = s.device.raised ++ more)
    (hkept : t.kept = keepFirst s.kept more) : t.Tells n := by
  refine ⟨?_, ?_⟩
  · rw [hraised, List.length_append]
    exact Nat.le_add_right_of_le h.bound
  · rw [hkept, h.kept, keepFirst_head?, since_of_raised h.bound hraised]

theorem raised_writeAll (w : Watched δ) (writes : List TextureWrite) :
    (writeAll d.watched w writes).1.raised = w.raised ++ (writeAll d.watched w writes).2 := by
  induction writes generalizing w with
  | nil => exact (List.append_nil w.raised).symm
  | cons write writes ih =>
    unfold writeAll
    dsimp only
    rw [ih]
    exact List.append_assoc w.raised _ _

theorem tells_upload (h : s.Tells n) (role : Role) (frame : Frame) :
    (s.upload d.watched role frame).state.Tells n := by
  have hraised := raised_writeAll (d := d) s.device ((s.textures.get role).upload role frame).1
  unfold upload
  split
  · exact h
  · unfold uploadTextures
    dsimp only
    split <;> exact h.raise hraised rfl

/-! ## Drawings -/

/-- What becomes of a drawing that was asked for in the state `s`, when the surface answers with
a status. The pending errors are those that are raised after the first `n` until it ends. -/
structure Answered (s : State (Watched δ)) (n : Nat) (status : SurfaceStatus)
    (ops : List (DrawOp Float32)) (reply : Reply (State (Watched δ)) Presentation) : Prop where
  presented : reply.outcome = .done .presented ↔
    status.givesFrame = true ∧ reply.state.since n = []
  shown : .surface .present ∈ reply.effects ↔ reply.outcome = .done .presented
  /-- With a frame the steps are drawn, and the first pending error is the answer. -/
  drawn : status.givesFrame = true →
    reply.state.device.calls = s.device.calls ++ [.acquire, .submit status (prepare ops)] ∧
      reply.state.kept = none ∧
      ∀ first rest, reply.state.since n = first :: rest →
        reply.outcome = .failed (.gpuOperation first)
  /-- Without a frame no pending error is lost. -/
  pending : status.givesFrame = false → reply.state.kept = (reply.state.since n).head?
  /-- A surface that is lost is configured once, and errors of that are pending as well. -/
  configured : status = .lost ∨ status = .outdated →
    reply.outcome = .done .skipped ∧
      reply.state.device.calls = s.device.calls ++ [.acquire, .configure s.surface] ∧
      reply.effects.filterMap Effect.surface? = [.acquire status, .configure s.surface]
  late : status = .timeout →
    reply.outcome = .done .skipped ∧ reply.state.device.calls = s.device.calls ++ [.acquire] ∧
      reply.state.since n = s.since n
  refused : status.givesFrame = false → status ∉ [.lost, .outdated, .timeout] →
    reply.outcome = .failed acquireFault ∧
      reply.state.device.calls = s.device.calls ++ [.acquire] ∧
      reply.state.since n = s.since n

/-- The state after a frame was asked for. -/
def asked (d : Device δ) (s : State (Watched δ)) : State (Watched δ) :=
  { s with device := (d.watched.acquire s.device).1 }

theorem calls_asked (d : Device δ) (s : State (Watched δ)) :
    (s.asked d).device.calls = s.device.calls ++ [.acquire] := rfl

theorem raised_asked (d : Device δ) (s : State (Watched δ)) :
    (s.asked d).device.raised = s.device.raised :=
  List.append_nil _

theorem since_asked (d : Device δ) (s : State (Watched δ)) (n : Nat) :
    (s.asked d).since n = s.since n := by
  unfold since
  rw [raised_asked]

theorem tells_asked (h : s.Tells n) : (s.asked d).Tells n :=
  ⟨by rw [raised_asked]; exact h.bound, by rw [since_asked]; exact h.kept⟩

theorem state_drawInto (s : State (Watched δ)) (status : SurfaceStatus)
    (ops : List (DrawOp Float32)) (stamp : Stamp) :
    (s.drawInto d.watched status ops stamp).state =
      { s with device := (d.watched.submit s.device status (prepare ops)).1, kept := none } := by
  unfold drawInto
  dsimp only
  split <;> rfl

theorem since_drawInto (h : s.Tells n) (status : SurfaceStatus) (ops : List (DrawOp Float32))
    (stamp : Stamp) :
    (s.drawInto d.watched status ops stamp).state.since n =
      s.since n ++ (d.watched.submit s.device status (prepare ops)).2 := by
  rw [state_drawInto]
  exact since_of_raised h.bound rfl

/-- A drawing into a frame shows it, or reports the first error that is pending at its end. -/
theorem drawInto_of_tells (h : s.Tells n) (status : SurfaceStatus)
    (ops : List (DrawOp Float32)) (stamp : Stamp) :
    let reply := s.drawInto d.watched status ops stamp
    (reply.state.since n = [] ∧ reply.outcome = .done .presented ∧
        .surface .present ∈ reply.effects) ∨
      ∃ first rest, reply.state.since n = first :: rest ∧
        reply.outcome = .failed (.gpuOperation first) ∧ reply.effects = [.surface .discard] := by
  have hkept : keepFirst s.kept (d.watched.submit s.device status (prepare ops)).2 =
      ((s.drawInto d.watched status ops stamp).state.since n).head? := by
    rw [h.kept, keepFirst_head?, since_drawInto h]
  intro reply
  cases hpending : reply.state.since n with
  | nil =>
    rw [hpending] at hkept
    refine .inl ⟨rfl, ?_⟩
    change (s.drawInto d.watched status ops stamp).outcome = _ ∧
      _ ∈ (s.drawInto d.watched status ops stamp).effects
    unfold drawInto
    dsimp only
    rw [hkept]
    exact ⟨rfl, List.mem_cons_self⟩
  | cons first rest =>
    rw [hpending] at hkept
    refine .inr ⟨first, rest, rfl, ?_⟩
    change (s.drawInto d.watched status ops stamp).outcome = _ ∧
      (s.drawInto d.watched status ops stamp).effects = _
    unfold drawInto
    dsimp only
    rw [hkept]
    exact ⟨rfl, rfl⟩

theorem answered_drawInto (h : s.Tells n) {status : SurfaceStatus}
    (hframe : status.givesFrame = true) (ops : List (DrawOp Float32)) (stamp : Stamp) :
    let reply := (s.asked d).drawInto d.watched status ops stamp
    Answered s n status ops
      { reply with effects := .surface (.acquire status) :: reply.effects } := by
  intro reply
  have hstate := state_drawInto (d := d) (s.asked d) status ops stamp
  have hcalls : reply.state.device.calls =
      s.device.calls ++ [.acquire, .submit status (prepare ops)] :=
    (congrArg (·.device.calls) hstate).trans
      (List.append_assoc s.device.calls [.acquire] [.submit status (prepare ops)])
  have hkept : reply.state.kept = none := congrArg (·.kept) hstate
  have hends := drawInto_of_tells (d := d) (tells_asked (d := d) h) status ops stamp
  refine ⟨?_, ?_, fun _ => ⟨hcalls, hkept, ?_⟩, ?_, ?_, ?_, ?_⟩
  · rcases hends with ⟨hpending, houtcome, -⟩ | ⟨first, rest, hpending, houtcome, -⟩
    · exact iff_of_true houtcome ⟨hframe, hpending⟩
    · refine iff_of_false ?_ ?_
      · rw [houtcome]
        nofun
      · rw [hpending]
        nofun
  · rcases hends with ⟨-, houtcome, hshown⟩ | ⟨first, rest, -, houtcome, heffects⟩
    · exact iff_of_true (List.mem_cons_of_mem _ hshown) houtcome
    · rw [houtcome, heffects]
      simp
  · intro first rest hfirst
    rcases hends with ⟨hpending, -, -⟩ | ⟨first', rest', hpending, houtcome, -⟩
    · rw [hpending] at hfirst
      cases hfirst
    · rw [hpending] at hfirst
      cases hfirst
      exact houtcome
  · exact fun h => Bool.noConfusion (hframe.symm.trans h)
  · rintro (rfl | rfl) <;> cases hframe
  · rintro rfl
    cases hframe
  · exact fun h => Bool.noConfusion (hframe.symm.trans h)

/-- Without a frame nothing is shown. -/
theorem answered_of_no_frame {status : SurfaceStatus} {ops : List (DrawOp Float32)}
    {reply : Reply (State (Watched δ)) Presentation} (hframe : status.givesFrame = false)
    (houtcome : reply.outcome ≠ .done .presented) (hshown : .surface .present ∉ reply.effects)
    (htells : reply.state.Tells n)
    (hconfigured : status = .lost ∨ status = .outdated →
      reply.outcome = .done .skipped ∧
        reply.state.device.calls = s.device.calls ++ [.acquire, .configure s.surface] ∧
        reply.effects.filterMap Effect.surface? = [.acquire status, .configure s.surface])
    (hlate : status = .timeout → reply.outcome = .done .skipped ∧ reply.state = s.asked d)
    (hrefused : status = .unknown →
      reply.outcome = .failed acquireFault ∧ reply.state = s.asked d) :
    Answered s n status ops reply where
  presented := iff_of_false houtcome fun h => Bool.false_ne_true (hframe ▸ h.1)
  shown := iff_of_false hshown houtcome
  drawn h := Bool.noConfusion (hframe.symm.trans h)
  pending _ := htells.kept
  configured := hconfigured
  late h := by
    obtain ⟨hskipped, hstate⟩ := hlate h
    rw [hstate, calls_asked, since_asked]
    exact ⟨hskipped, rfl, rfl⟩
  refused _ h := by
    have hunknown : status = .unknown := by
      revert hframe h
      cases status <;> decide
    obtain ⟨hfailed, hstate⟩ := hrefused hunknown
    rw [hstate, calls_asked, since_asked]
    exact ⟨hfailed, rfl, rfl⟩

theorem answered_render (h : s.Tells n) (ops : List (DrawOp Float32)) (stamp : Stamp) :
    Answered s n (d.acquire s.device.device).2 ops (s.render d.watched ops stamp) := by
  have hasked := tells_asked (d := d) h
  unfold render
  dsimp only [Device.watched]
  generalize (d.acquire s.device.device).2 = status
  cases status with
  | lost | outdated =>
    refine answered_of_no_frame (d := d) rfl nofun (by simp) (hasked.raise rfl rfl)
      (fun _ => ⟨rfl, ?_, rfl⟩) nofun nofun
    exact List.append_assoc s.device.calls [.acquire] [.configure s.surface]
  | timeout =>
    exact answered_of_no_frame (d := d) rfl nofun (by simp) hasked (by simp)
      (fun _ => ⟨rfl, rfl⟩) nofun
  | unknown =>
    exact answered_of_no_frame (d := d) rfl nofun (by simp) hasked (by simp) nofun
      fun _ => ⟨rfl, rfl⟩
  | good | suboptimal | foreign => exact answered_drawInto h rfl ops stamp

theorem raised_render (s : State (Watched δ)) (ops : List (DrawOp Float32)) (stamp : Stamp) :
    s.device.raised <+: (s.render d.watched ops stamp).state.device.raised := by
  have hasked : s.device.raised <+: (s.asked d).device.raised := List.prefix_append _ _
  unfold render
  dsimp only [Device.watched]
  generalize (d.acquire s.device.device).2 = status
  cases status with
  | lost | outdated => exact hasked.trans (List.prefix_append _ _)
  | timeout | unknown => exact hasked
  | good | suboptimal | foreign =>
    refine hasked.trans ?_
    change _ <+: ((s.asked d).drawInto d.watched _ ops stamp).state.device.raised
    rw [state_drawInto]
    exact List.prefix_append _ _

theorem tells_render (h : s.Tells n) {ops : List (DrawOp Float32)} {stamp : Stamp}
    (hquiet : ¬ Reports d.watched s ops stamp) :
    (s.render d.watched ops stamp).state.Tells n := by
  have hanswered := answered_render (d := d) h ops stamp
  refine ⟨Nat.le_trans h.bound (raised_render s ops stamp).length_le, ?_⟩
  cases hframe : (d.acquire s.device.device).2.givesFrame with
  | false => exact hanswered.pending hframe
  | true =>
    obtain ⟨-, hkept, hfirst⟩ := hanswered.drawn hframe
    cases hpending : (s.render d.watched ops stamp).state.since n with
    | nil => exact hkept
    | cons first rest => exact absurd ⟨hframe, _, hfirst first rest hpending⟩ hquiet

/-- After all uploads and drawings the first error that is not reported yet is kept. -/
theorem tells_of_told (h : Told d c s n) : s.Tells n := by
  induction h with
  | create device => exact ⟨Nat.le_refl 0, rfl⟩
  | upload _ role frame ih => exact tells_upload ih role frame
  | render _ hquiet ih => exact tells_render ih hquiet
  | @report s n _ ops stamp hreport ih =>
    have hanswered := answered_render (d := d) ih ops stamp
    refine ⟨Nat.le_refl _, ?_⟩
    rw [(hanswered.drawn hreport.1).2.1, since_length]
    rfl

/-- However often a device has drawn and was given frames to upload, and whatever errors it has
raised by then: a picture is shown exactly when the surface gives a frame and no error is pending,
from before or from the drawing itself. The first pending error is the answer otherwise, and the
next picture can be shown again. Without a frame nothing is drawn and no pending error is lost. A
surface that is lost or outdated is configured once more, and one that is late is passed over. -/
theorem no_picture_is_shown_over_an_error (h : Told d c s n) (ops : List (DrawOp Float32))
    (stamp : Stamp) :
    Answered s n (d.acquire s.device.device).2 ops (s.render d.watched ops stamp) :=
  answered_render (tells_of_told h) ops stamp

/-- A device that raises an error whenever its surface is configured. -/
def reluctant : Device (List SurfaceStatus) where
  acquire statuses := (statuses.tail, statuses.head?.getD .good)
  configure statuses _ := (statuses, ["Surface is in use"])
  write statuses _ := (statuses, [])
  submit statuses _ _ := (statuses, [])

/-- A surface is lost, its configuration raises an error, and it is late for the next frame. The
error is the answer for the third frame, and the fourth is shown. -/
theorem an_error_outlasts_the_frames_that_are_skipped :
    let c : Config Float32 := .withSizes ⟨1, 1⟩ ⟨2, 1⟩ ⟨1, 1⟩
    let draw : State (Watched (List SurfaceStatus)) → Reply _ Presentation :=
      fun s => s.render reluctant.watched [] ⟨0, 0⟩
    let first := draw (create c (.start [.lost, .timeout])).1
    let second := draw first.state
    let third := draw second.state
    let fourth := draw third.state
    first.outcome = .done .skipped ∧ second.outcome = .done .skipped ∧
      second.state.kept = some "Surface is in use" ∧
      third.outcome = .failed (.gpuOperation "Surface is in use") ∧
      fourth.outcome = .done .presented := by
  intro c draw first second third fourth
  have hstart : Told reluctant c (create c (.start [.lost, .timeout])).1 0 := .create _
  have hfirst : Told reluctant c first.state 0 := hstart.render fun h => nomatch h.1
  have hsecond : Told reluctant c second.state 0 := hfirst.render fun h => nomatch h.1
  have hreported := (no_picture_is_shown_over_an_error hsecond [] ⟨0, 0⟩).drawn rfl
  have houtcome : third.outcome = .failed (.gpuOperation "Surface is in use") :=
    hreported.2.2 _ [] rfl
  have hthird : Told reluctant c third.state 1 := hsecond.report ⟨rfl, _, houtcome⟩
  refine ⟨?_, ?_, ?_, houtcome, ?_⟩
  · exact ((no_picture_is_shown_over_an_error hstart [] ⟨0, 0⟩).configured (.inl rfl)).1
  · exact ((no_picture_is_shown_over_an_error hfirst [] ⟨0, 0⟩).late rfl).1
  · exact (no_picture_is_shown_over_an_error hfirst [] ⟨0, 0⟩).pending rfl
  · exact (no_picture_is_shown_over_an_error hthird [] ⟨0, 0⟩).presented.mpr ⟨rfl, rfl⟩

end State

end PictureInPicture.Gpu
