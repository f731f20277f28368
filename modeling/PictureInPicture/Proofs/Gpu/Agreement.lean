-- One verdict on a frame. The endpoint of a session, the textures in memory and the textures of
-- the graphics device take the same frames and name the same fault of the others. The planes that
-- are written to the device are those that the memory holds, and a refused frame writes none.
import Mathlib.Data.List.Forall2
import PictureInPicture.Gpu.Backend
import PictureInPicture.Proofs.Raster.Upload
import PictureInPicture.Proofs.Session.Vetting

namespace PictureInPicture

/-! ## What the endpoint says -/

namespace Inbox

variable {i : Inbox} {role : Role} {frame : Frame} {listening : Bool} {meanwhile : Inbox → Inbox}

/-- A frame that was parked is taken back only when the session stops or nobody listens. -/
theorem lost_of_ignored {displaced : Bool}
    (h : (i.conclude role displaced listening).2.1 = .ignored) :
    i.stopping = true ∨ listening = false := by
  unfold conclude at h
  split at h
  · exact .inl ‹_›
  · split at h
    · cases h
    · split at h
      · cases h
      · exact .inr (Bool.not_eq_true _ ▸ ‹¬ listening = true›)

/-- A running session refuses a frame with the fault of its check. -/
theorem submit_of_invalid {fault : BufferFault} (hrunning : i.stopping = false)
    (hv : frame.validateFor role ((meanwhile i).declared.get role) = .error fault) :
    (i.submit role frame listening meanwhile).result = .error fault := by
  unfold submit inspect
  rw [hrunning]
  dsimp only
  rw [hv]
  rfl

/-- A running session takes a frame that passes its check. -/
theorem submit_of_valid (hrunning : i.stopping = false)
    (hv : frame.validateFor role ((meanwhile i).declared.get role) = .ok ()) :
    ∃ submission, (i.submit role frame listening meanwhile).result = .ok submission ∧
      (submission = .ignored → (meanwhile i).stopping = true ∨ listening = false) := by
  unfold submit inspect
  rw [hrunning]
  dsimp only
  rw [hv]
  exact ⟨_, rfl, lost_of_ignored (i := (meanwhile i).park role frame)⟩

end Inbox

/-- The memories of a texture, in the order in which they are overwritten. -/
def Texture.planes : Texture → List ByteArray
  | packed _ _ texels => [texels]
  | planar y u v => [y.samples, u.samples, v.samples]

/-- A memory that was overwritten has the pixels of its buffer without padding and gaps. -/
theorem tight_of_overwrite {m bytes : ByteArray} {b : Buffer} {channels : Nat}
    (h : overwrite m b channels = .ok bytes) :
    ∃ tight, b.tightBytes channels.toUInt64 = .ok tight ∧ tight.bytes = bytes := by
  unfold overwrite at h
  split at h
  · cases h
  · rename_i tight htight
    split at h
    · cases h
      exact ⟨tight, htight, rfl⟩
    · cases h

namespace Gpu

/-! ## Writes -/

/-- The data of a write are all rows of its texture, and nothing else. -/
def TextureWrite.IsWhole (w : TextureWrite) : Prop :=
  w.rows = w.texture.size.height ∧
    w.bytes.size = w.texture.size.area * w.texture.format.channels.toNat

/-- Writes to textures of a role, in this order, with these bytes. -/
structure Writes (role : Role) (textures : List PlaneTexture) (planes : List ByteArray)
    (writes : List TextureWrite) : Prop where
  textures : writes.map (·.texture) = textures
  bytes : writes.map (·.bytes) = planes
  role : ∀ w ∈ writes, w.role = role
  whole : ∀ w ∈ writes, w.IsWhole

/-- A buffer of the size of a texture, with the bytes that it is packed into. -/
structure PlaneTexture.Takes (t : PlaneTexture) (b : Buffer) (bytes : ByteArray) : Prop where
  size : b.size = t.size
  tight : ∃ tight, b.tightBytes t.format.channels.toUInt64 = .ok tight ∧ tight.bytes = bytes
  length : bytes.size = t.size.area * t.format.channels.toNat

/-- What is copied over a memory is what the device would write. -/
theorem PlaneTexture.takes_of_overwrite {t : PlaneTexture} {b : Buffer} {m bytes : ByteArray}
    {channels : Nat} (hchannels : t.format.channels.toNat = channels) (hsize : b.size = t.size)
    (hm : m.size = t.size.area * channels) (h : overwrite m b channels = .ok bytes) :
    t.Takes b bytes := by
  subst hchannels
  have hword : t.format.channels.toNat.toUInt64 = t.format.channels.toUInt64 := by
    simp
  refine ⟨hsize, ?_, ?_⟩
  · rw [← hword]
    exact tight_of_overwrite h
  · rw [size_overwrite h, hm]

/-- A buffer that a texture takes is written as a whole. -/
theorem PlaneTexture.write_of_takes {t : PlaneTexture} {b : Buffer} {bytes : ByteArray}
    (h : t.Takes b bytes) (role : Role) :
    t.write role b =
      .ok ⟨role, t, bytes, t.size.width * t.format.channels, t.size.height⟩ := by
  obtain ⟨tight, htight, rfl⟩ := h.tight
  unfold write checkPlane
  rw [if_pos h.size, htight]

namespace SourceTextures

theorem writes_cons {role : Role} {t : PlaneTexture} {b : Buffer} {bytes : ByteArray}
    {textures : List PlaneTexture} {planes : List ByteArray} {writes : List TextureWrite}
    (ht : t.Takes b bytes) (h : Writes role textures planes writes) :
    Writes role (t :: textures) (bytes :: planes)
      (⟨role, t, bytes, t.size.width * t.format.channels, t.size.height⟩ :: writes) := by
  refine ⟨?_, ?_, ?_, ?_⟩
  · rw [List.map_cons, h.textures]
  · rw [List.map_cons, h.bytes]
  · exact List.forall_mem_cons.mpr ⟨rfl, h.role⟩
  · exact List.forall_mem_cons.mpr ⟨⟨rfl, ht.length⟩, h.whole⟩

/-- Buffers that their textures take are all written. -/
theorem writeAll_of_takes (jobs : List (PlaneTexture × Buffer)) {planes : List ByteArray}
    (h : List.Forall₂ (fun job bytes => job.1.Takes job.2 bytes) jobs planes) (role : Role) :
    ∃ writes, writeAll role jobs = (writes, .ok ()) ∧
      Writes role (jobs.map (·.1)) planes writes := by
  induction h with
  | nil => exact ⟨[], rfl, rfl, rfl, List.forall_mem_nil _, List.forall_mem_nil _⟩
  | @cons job bytes _ _ ht _ ih =>
    obtain ⟨writes, hall, hwrites⟩ := ih
    refine ⟨_, ?_, writes_cons ht hwrites⟩
    obtain ⟨t, b⟩ := job
    unfold writeAll
    rw [PlaneTexture.write_of_takes ht role, hall]

/-- A frame that the memory of a source has taken is written to the device, plane by plane, with
the bytes that the memory then holds. -/
theorem upload_of_taken {t : Texture} {source : Source} {role : Role} {frame : Frame}
    (h : t.Alike (.blank source)) (hf : frame.Fits source)
    (hok : (t.upload role source.format.packing frame).2 = .ok ()) :
    ∃ writes, (allocate source).upload role frame = (writes, .ok ()) ∧
      Writes role (allocate source).textures
        (t.upload role source.format.packing frame).1.planes writes := by
  unfold allocate
  cases hformat : source.format with
  | packed order =>
    obtain ⟨texels, rfl, hsize⟩ := Texture.shape_of_packed h hformat
    obtain ⟨b, rfl, hsuits⟩ := Frame.packed_of_fits hf hformat
    rw [hformat] at hok
    obtain ⟨bytes, hbytes, heq⟩ := Texture.upload_packed_ok hok
    rw [heq]
    have written : ∀ {format : TextureFormat}, format.channels.toNat = packedChannels →
        ∃ writes, writeAll role [(⟨.packed, source.size, format⟩, b)] = (writes, .ok ()) ∧
          Writes role [⟨.packed, source.size, format⟩] [bytes] writes := by
      intro format hchannels
      exact writeAll_of_takes [(_, b)]
        (.cons (PlaneTexture.takes_of_overwrite hchannels hsuits.1 hsize hbytes) .nil) role
    -- The two orders of the bytes have textures of different formats, with four channels each.
    cases order with
    | rgba => exact written rfl
    | bgra => exact written rfl
  | planar subsampling =>
    obtain ⟨y, u, v, rfl, hysize, husize, hvsize⟩ := Texture.shape_of_planar h hformat
    obtain ⟨p, rfl, hysuits, husuits, hvsuits⟩ := Frame.planar_of_fits hf hformat
    rw [hformat] at hok
    obtain ⟨ybytes, ubytes, vbytes, hy, hu, hv, heq⟩ := Texture.upload_planar_ok hok
    rw [heq]
    have takes : ∀ {plane : Plane} {size : Size} {b : Buffer} {m bytes : ByteArray},
        b.Suits size 1 → m.size = size.area → overwrite m b 1 = .ok bytes →
        (⟨plane, size, .r8Unorm⟩ : PlaneTexture).Takes b bytes := by
      intro plane size b m bytes hb hm hbytes
      have hsize : m.size = size.area * 1 := by rw [hm, Nat.mul_one]
      exact PlaneTexture.takes_of_overwrite rfl hb.1 hsize hbytes
    exact writeAll_of_takes [(_, p.y), (_, p.u), (_, p.v)]
      (.cons (takes hysuits hysize hy) (.cons (takes husuits husize hu)
        (.cons (takes hvsuits hvsize hv) .nil))) role

end SourceTextures

/-! ## The states of the device -/

namespace State

variable {α δ : Type}

/-- The states that a device comes to by uploads and drawings. -/
inductive Reached (d : Device δ) (c : Config α) : State δ → Prop where
  | create (device : δ) : Reached d c (create c device).1
  | upload {s} (h : Reached d c s) (role : Role) (frame : Frame) :
      Reached d c (s.upload d role frame).state
  | render {s} (h : Reached d c s) (ops : List (DrawOp Float32)) (stamp : Stamp) :
      Reached d c (s.render d ops stamp).state

variable {c : Config α} {d : Device δ} {s : State δ} {role : Role} {frame : Frame}

/-- Declared formats and textures are those of the settings. -/
structure Shaped (s : State δ) (c : Config α) : Prop where
  declared : s.declared = c.sources
  textures : s.textures = c.sources.map .allocate

/-- A frame that does not pass the check is refused, and nothing is written. -/
theorem upload_of_invalid {fault : BufferFault}
    (hv : frame.validateFor role (s.declared.get role) = .error fault) :
    s.upload d role frame = ⟨s, .failed (.invalidBuffer fault), []⟩ := by
  unfold upload
  rw [hv]

theorem shaped_upload (h : s.Shaped c) (role : Role) (frame : Frame) :
    (s.upload d role frame).state.Shaped c := by
  unfold upload
  split
  · exact h
  · unfold uploadTextures
    dsimp only
    split <;> exact ⟨h.declared, h.textures⟩

theorem shaped_drawInto (h : s.Shaped c) (status : SurfaceStatus) (ops : List (DrawOp Float32))
    (stamp : Stamp) : (s.drawInto d status ops stamp).state.Shaped c := by
  unfold drawInto
  dsimp only
  split <;> exact ⟨h.declared, h.textures⟩

theorem shaped_render (h : s.Shaped c) (ops : List (DrawOp Float32)) (stamp : Stamp) :
    (s.render d ops stamp).state.Shaped c := by
  have hasked : Shaped { s with device := (d.acquire s.device).1 } c := ⟨h.declared, h.textures⟩
  unfold render
  dsimp only
  split
  · exact ⟨h.declared, h.textures⟩
  · exact ⟨h.declared, h.textures⟩
  · exact hasked
  · exact hasked
  all_goals exact shaped_drawInto hasked _ ops stamp

theorem shaped_of_reached (h : Reached d c s) : s.Shaped c := by
  induction h with
  | create => exact ⟨rfl, rfl⟩
  | upload _ role frame ih => exact shaped_upload ih role frame
  | render _ ops stamp ih => exact shaped_render ih ops stamp

/-- A frame that passes the check is written as its textures say. -/
theorem upload_of_writes {writes : List TextureWrite}
    (hv : frame.validateFor role (s.declared.get role) = .ok ())
    (hw : (s.textures.get role).upload role frame = (writes, .ok ())) :
    (s.upload d role frame).outcome = .done () ∧
      (s.upload d role frame).state.device = (writeAll d s.device writes).1 := by
  unfold upload uploadTextures
  rw [hv]
  dsimp only
  rw [hw]
  exact ⟨rfl, rfl⟩

end State

/-- However a session, a memory and a device with the same settings came to where they are, they
agree on every frame. They all refuse it with one fault, and nothing is stored or written; or they
all take it, and each plane that is written to the device is the one that the memory then holds. -/
theorem endpoint_memory_and_device_give_one_verdict {σ δ : Type} (b : Backend σ)
    (acts : List (Act σ)) {n : Nat} {t : Terms σ} {inbox : Inbox}
    (ht : (Course.run b acts).terms[n]? = some t)
    (hi : (Course.run b acts).world.inbox? n = some inbox) (hrunning : inbox.stopping = false)
    (listening : Bool) {meanwhile : Inbox → Inbox}
    (hmeanwhile : (meanwhile inbox).declared = inbox.declared)
    {memory : Raster.State} (hmemory : Raster.State.Reached t.config memory)
    (d : Device δ) {device : State δ} (hdevice : State.Reached d t.config device)
    (role : Role) (frame : Frame) (ha : frame.Addressable) :
    let submitted := inbox.submit role frame listening meanwhile
    let stored := memory.upload role frame
    let written := device.upload d role frame
    (∃ fault, submitted.result = .error fault ∧
        stored.outcome = .failed (.invalidBuffer fault) ∧ stored.state = memory ∧
        written.outcome = .failed (.invalidBuffer fault) ∧ written.state = device) ∨
      (∃ submission writes, submitted.result = .ok submission ∧
        (submission = .ignored → (meanwhile inbox).stopping = true ∨ listening = false) ∧
        stored.outcome = .done () ∧ written.outcome = .done () ∧
        written.state.device = (State.writeAll d device.device writes).1 ∧
        Writes role (SourceTextures.allocate (t.config.sources.get role)).textures
          (stored.state.textures.get role).planes writes) := by
  intro submitted stored written
  have hasked : (meanwhile inbox).declared = t.config.sources := by
    have hdeclared := (Course.vetted_run b acts).declared n
    rw [World.declared?_eq hi, ht] at hdeclared
    exact hmeanwhile.trans (Option.some_inj.mp hdeclared)
  have hshaped := Raster.State.shaped_of_reached hmemory
  have hcard := State.shaped_of_reached hdevice
  cases hv : frame.validateFor role (t.config.sources.get role) with
  | error fault =>
    have hsubmit : submitted.result = .error fault :=
      Inbox.submit_of_invalid hrunning (hasked ▸ hv)
    have hstore : stored = ⟨memory, .failed (.invalidBuffer fault), []⟩ :=
      Raster.State.upload_of_invalid (hshaped.declared ▸ hv)
    have hwrite : written = ⟨device, .failed (.invalidBuffer fault), []⟩ :=
      State.upload_of_invalid (hcard.declared ▸ hv)
    rw [hstore, hwrite]
    exact .inl ⟨fault, hsubmit, rfl, rfl, rfl, rfl⟩
  | ok =>
    have hfit : frame.Fits (t.config.sources.get role) := (Frame.validateFor_eq_ok role).mp hv
    obtain ⟨submission, hsubmit, hlost⟩ : ∃ submission, submitted.result = .ok submission ∧
        (submission = .ignored → (meanwhile inbox).stopping = true ∨ listening = false) :=
      Inbox.submit_of_valid hrunning (hasked ▸ hv)
    have hok := Texture.upload_of_fits role (hshaped.texture role) hfit ha
    obtain ⟨writes, hupload, hwrites⟩ :=
      SourceTextures.upload_of_taken (hshaped.texture role) hfit hok
    have hstored : stored = _ :=
      Raster.State.upload_of_taken (hshaped.declared ▸ hv) (hshaped.declared ▸ hok)
    rw [hshaped.declared] at hstored
    have htextures : (device.textures.get role).upload role frame = (writes, .ok ()) := by
      rw [hcard.textures, Both.get_map]
      exact hupload
    obtain ⟨houtcome, hwritten⟩ :=
      State.upload_of_writes (d := d) (hcard.declared ▸ hv) htextures
    refine .inr ⟨submission, writes, hsubmit, hlost, ?_, houtcome, hwritten, ?_⟩
    · rw [hstored]
    · rw [hstored]
      dsimp only
      rw [Both.get_set_self]
      exact hwrites

/-- A device that does nothing but keep the writes. -/
def recorder : Device (List TextureWrite) where
  acquire kept := (kept, .good)
  configure kept _ := (kept, [])
  write kept w := (kept ++ [w], [])
  submit kept _ _ := (kept, [])

theorem kept_writeAll (kept writes : List TextureWrite) :
    (State.writeAll recorder kept writes).1 = kept ++ writes := by
  induction writes generalizing kept with
  | nil => exact (List.append_nil kept).symm
  | cons w writes ih =>
    unfold State.writeAll
    dsimp only
    rw [ih]
    exact List.append_assoc kept [w] writes

/-- A planar frame with gaps in its luma is written plane by plane. Without its V plane it is
refused, and not even its luma is written. -/
theorem a_frame_without_a_plane_is_not_written :
    let c : Config Float32 := .withSizes ⟨1, 1⟩ ⟨2, 1⟩ ⟨1, 1⟩
    let session := Course.run (obliging (.done ()))
      [.start c (fun _ => ⟨.done (), []⟩) (.steady 1)]
    let memory := Raster.State.blank c
    let device := (State.create c ([] : List TextureWrite)).1
    let luma : Buffer := ⟨2, 1, 8, 3, ⟨#[1, 90, 91, 2]⟩⟩
    let whole : Frame := .planar ⟨luma, ⟨1, 1, 1, 1, ⟨#[3]⟩⟩, ⟨1, 1, 1, 1, ⟨#[4]⟩⟩⟩
    let torn : Frame := .planar ⟨luma, ⟨1, 1, 1, 1, ⟨#[3]⟩⟩, ⟨1, 1, 1, 1, ⟨#[]⟩⟩⟩
    ∃ inbox, session.world.inbox? 0 = some inbox ∧ inbox.stopping = false ∧
      (inbox.submit .secondary torn true id).result = .error (.truncated 1 0) ∧
      (memory.upload .secondary torn).outcome = .failed (.invalidBuffer (.truncated 1 0)) ∧
      (device.upload recorder .secondary torn).outcome =
        .failed (.invalidBuffer (.truncated 1 0)) ∧
      (device.upload recorder .secondary torn).state.device = [] ∧
      (inbox.submit .secondary whole true id).result = .ok .queued ∧
      (device.upload recorder .secondary whole).state.device.map (·.bytes) =
        [⟨#[1, 2]⟩, ⟨#[3]⟩, ⟨#[4]⟩] ∧
      ((memory.upload .secondary whole).state.textures.get .secondary).planes =
        [⟨#[1, 2]⟩, ⟨#[3]⟩, ⟨#[4]⟩] := by
  intro c session memory device luma whole torn
  have hv : c.validate = .ok () := by decide +kernel
  have ht : session.terms[0]? = some ⟨c, fun _ => ⟨.done (), []⟩, .steady 1⟩ :=
    Course.term_of_start c _ (.steady 1) hv
  have hi : session.world.inbox? 0 = some (.ofConfig c) :=
    Course.inbox_of_start c _ (.steady 1) hv
  have hmemory : Raster.State.Reached c memory :=
    .create (Raster.State.create_eq_ok.mpr ⟨by decide +kernel, rfl⟩)
  have hdevice : State.Reached recorder c device := .create []
  have hwhole : whole.Addressable := by
    refine ⟨?_, ?_, ?_⟩ <;> unfold Buffer.Addressable <;> decide
  have htorn : torn.Addressable := by
    refine ⟨?_, ?_, ?_⟩ <;> unfold Buffer.Addressable <;> decide
  have hrefused : ((Inbox.ofConfig c).submit .secondary torn true id).result =
      .error (.truncated 1 0) := by
    decide +kernel
  have hqueued : ((Inbox.ofConfig c).submit .secondary whole true id).result = .ok .queued := by
    decide +kernel
  have hplanes : ((memory.upload .secondary whole).state.textures.get .secondary).planes =
      [⟨#[1, 2]⟩, ⟨#[3]⟩, ⟨#[4]⟩] := by
    decide +kernel
  have hkept : (memory.upload .secondary torn).outcome =
        .failed (.invalidBuffer (.truncated 1 0)) ∧
      (device.upload recorder .secondary torn).outcome =
        .failed (.invalidBuffer (.truncated 1 0)) ∧
      (device.upload recorder .secondary torn).state = device := by
    rcases endpoint_memory_and_device_give_one_verdict (obliging (.done ())) _ ht hi rfl true
      (by rfl : (id (Inbox.ofConfig c)).declared = _) hmemory recorder hdevice .secondary torn
      htorn with ⟨fault, hresult, hstored, _, hwritten, hsame⟩ | ⟨_, _, hresult, _⟩
    · rw [hrefused] at hresult
      cases hresult
      exact ⟨hstored, hwritten, hsame⟩
    · rw [hrefused] at hresult
      cases hresult
  have hwritten : (device.upload recorder .secondary whole).state.device.map (·.bytes) =
      [⟨#[1, 2]⟩, ⟨#[3]⟩, ⟨#[4]⟩] := by
    rcases endpoint_memory_and_device_give_one_verdict (obliging (.done ())) _ ht hi rfl true
      (by rfl : (id (Inbox.ofConfig c)).declared = _) hmemory recorder hdevice .secondary whole
      hwhole with ⟨fault, hresult, _⟩ | ⟨_, writes, _, _, _, _, hdevice, hwrites⟩
    · rw [hqueued] at hresult
      cases hresult
    · rw [hdevice, kept_writeAll, List.map_append, hwrites.bytes, hplanes]
      rfl
  exact ⟨_, hi, rfl, hrefused, hkept.1, hkept.2.1, by rw [hkept.2.2]; rfl, hqueued, hwritten,
    hplanes⟩

end Gpu

end PictureInPicture
