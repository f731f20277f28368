-- Uploads into memory. A frame is taken exactly when it fits its source. Its texture then holds
-- the addressed bytes of the frame, and nothing else has changed. A frame that is refused changes
-- nothing at all.
import Mathlib.Data.List.Basic
import PictureInPicture.Proofs.Buffer.Packing
import PictureInPicture.Proofs.Raster.Residue

namespace PictureInPicture

/-! ## Frames that fit -/

/-- A plane of its declared size, with samples that lie inside its data. -/
def Buffer.Suits (b : Buffer) (declared : Size) (channels : Nat) : Prop :=
  b.size = declared ∧ b.validate channels.toUInt64 = .ok ()

/-- The data of a buffer is a memory that can be had. -/
def Buffer.Addressable (b : Buffer) : Prop := b.data.size ≤ addressLimit

theorem Planes.checkPlane_eq_ok (plane : Plane) {declared : Size} {channels : Nat} {b : Buffer} :
    checkPlane plane declared channels.toUInt64 b = .ok () ↔ b.Suits declared channels := by
  unfold checkPlane Buffer.Suits
  by_cases h : b.size = declared
  · simp [h]
  · simp [h]

theorem Planes.validate_eq_ok {p : Planes} {luma : Size} {subsampling : Subsampling} :
    p.validate luma subsampling = .ok () ↔
      p.y.Suits luma 1 ∧ p.u.Suits (subsampling.chromaSize luma) 1 ∧
        p.v.Suits (subsampling.chromaSize luma) 1 := by
  rw [← checkPlane_eq_ok .luma, ← checkPlane_eq_ok .chromaU, ← checkPlane_eq_ok .chromaV]
  unfold validate
  change (do
    checkPlane .luma luma (1 : Nat).toUInt64 p.y
    checkPlane .chromaU (subsampling.chromaSize luma) (1 : Nat).toUInt64 p.u
    checkPlane .chromaV (subsampling.chromaSize luma) (1 : Nat).toUInt64 p.v) = .ok () ↔ _
  cases checkPlane .luma luma (1 : Nat).toUInt64 p.y with
  | error => simp [bind, Except.bind]
  | ok =>
    cases checkPlane .chromaU (subsampling.chromaSize luma) (1 : Nat).toUInt64 p.u with
    | error => simp [bind, Except.bind]
    | ok => simp [bind, Except.bind]

namespace Frame

/-- The packing, the sizes and the buffers are those that a source declares. -/
def Fits (frame : Frame) (source : Source) : Prop :=
  match frame, source.format with
  | packed buffer, .packed _ => buffer.Suits source.size packedChannels
  | planar planes, .planar subsampling =>
    planes.y.Suits source.size 1 ∧ planes.u.Suits (subsampling.chromaSize source.size) 1 ∧
      planes.v.Suits (subsampling.chromaSize source.size) 1
  | _, _ => False

/-- The data of every plane is a memory that can be had. -/
def Addressable : Frame → Prop
  | packed buffer => buffer.Addressable
  | planar planes => planes.y.Addressable ∧ planes.u.Addressable ∧ planes.v.Addressable

/-- The check lets a frame pass exactly when it fits. -/
theorem validateFor_eq_ok (role : Role) {frame : Frame} {source : Source} :
    frame.validateFor role source = .ok () ↔ frame.Fits source := by
  unfold validateFor Fits
  cases frame with
  | packed buffer =>
    cases source.format with
    | packed => exact Planes.checkPlane_eq_ok .packed
    | planar => simp
  | planar planes =>
    cases source.format with
    | packed => simp
    | planar => exact Planes.validate_eq_ok

variable {frame : Frame} {source : Source}

/-- A frame that fits a packed source is packed. -/
theorem packed_of_fits {order : ChannelOrder} (h : frame.Fits source)
    (hf : source.format = .packed order) :
    ∃ b, frame = .packed b ∧ b.Suits source.size packedChannels := by
  unfold Fits at h
  rw [hf] at h
  cases frame with
  | packed b => exact ⟨b, rfl, h⟩
  | planar => exact h.elim

/-- A frame that fits a planar source is planar. -/
theorem planar_of_fits {subsampling : Subsampling} (h : frame.Fits source)
    (hf : source.format = .planar subsampling) :
    ∃ p, frame = .planar p ∧ p.y.Suits source.size 1 ∧
      p.u.Suits (subsampling.chromaSize source.size) 1 ∧
      p.v.Suits (subsampling.chromaSize source.size) 1 := by
  unfold Fits at h
  rw [hf] at h
  cases frame with
  | packed => exact h.elim
  | planar p => exact ⟨p, rfl, h⟩

end Frame

/-! ## Textures that hold a frame -/

section

variable {m bytes : ByteArray} {b : Buffer} {declared : Size} {channels : Nat}

/-- A memory as large as the pixels of a buffer holds them once it was overwritten. -/
theorem fills_of_overwrite (h : overwrite m b channels = .ok bytes) (hn : 0 < channels)
    (hw : channels < UInt64.size) (hm : m.size = b.size.area * channels) :
    b.Fills channels bytes := by
  have hword : channels.toUInt64.toNat = channels := Nat.mod_eq_of_lt hw
  unfold overwrite at h
  split at h
  · cases h
  · rename_i tight htight
    split at h
    · rename_i hsize
      cases h
      have hfills := Buffer.fills_of_tightBytes htight (by omega) (by rw [hword, hsize, hm])
      rwa [hword] at hfills
    · cases h

/-- A buffer that suits is copied over a memory as large as its pixels. -/
theorem overwrite_of_suits (hb : b.Suits declared channels) (ha : b.Addressable)
    (hw : channels < UInt64.size) (hm : m.size = declared.area * channels) :
    ∃ bytes, overwrite m b channels = .ok bytes := by
  have hword : channels.toUInt64.toNat = channels := Nat.mod_eq_of_lt hw
  obtain ⟨tight, htight, hfills⟩ := Buffer.tightBytes_of_covered hb.2
    (Buffer.covered_of_validate hb.2 ha)
  have hsize : tight.bytes.size = m.size := by
    rw [hfills.size_eq, hm, ← hb.1, Buffer.area_mul, hword]
  refine ⟨tight.bytes, ?_⟩
  unfold overwrite
  rw [htight]
  exact if_pos hsize

end

/-- The texture has the size of a buffer and holds its samples. -/
def PlaneTexture.Holds (t : PlaneTexture) (b : Buffer) : Prop :=
  t.size = b.size ∧ b.Fills 1 t.samples

theorem size_zeros (n : Nat) : (zeros n).size = n := by
  rw [zeros, Buffer.size_replicate]
  exact Nat.mul_one n

namespace Texture

/-- The texture holds the pixels of a frame in a format, and nothing else. -/
def Holds (t : Texture) (format : PixelFormat) (frame : Frame) : Prop :=
  match t, format, frame with
  | packed size order texels, .packed declared, .packed buffer =>
    size = buffer.size ∧ order = declared ∧ buffer.Fills packedChannels texels
  | planar y u v, .planar _, .planar planes =>
    y.Holds planes.y ∧ u.Holds planes.u ∧ v.Holds planes.v
  | _, _, _ => False

theorem alike_trans {t t' t'' : Texture} (h : Alike t t') (h' : Alike t' t'') : Alike t t'' := by
  cases t <;> cases t' <;> cases t'' <;> try contradiction
  · exact ⟨h.1.trans h'.1, h.2.1.trans h'.2.1, h.2.2.trans h'.2.2⟩
  · obtain ⟨hy, hu, hv⟩ := h
    obtain ⟨hy', hu', hv'⟩ := h'
    exact ⟨⟨hy.1.trans hy'.1, hy.2.trans hy'.2⟩, ⟨hu.1.trans hu'.1, hu.2.trans hu'.2⟩,
      ⟨hv.1.trans hv'.1, hv.2.trans hv'.2⟩⟩

variable {t : Texture} {source : Source} {role : Role} {frame : Frame}

/-- The memory of a packed texture has four bytes for each pixel. -/
theorem shape_of_packed {order : ChannelOrder} (h : Alike t (blank source))
    (hf : source.format = .packed order) :
    ∃ texels, t = .packed source.size order texels ∧
      texels.size = source.size.area * packedChannels := by
  unfold blank at h
  rw [hf] at h
  cases t with
  | planar => exact h.elim
  | packed size order' texels =>
    obtain ⟨rfl, rfl, hsize⟩ := h
    rw [size_zeros] at hsize
    exact ⟨texels, rfl, hsize⟩

/-- The memories of a planar texture have one byte for each pixel. -/
theorem shape_of_planar {subsampling : Subsampling} (h : Alike t (blank source))
    (hf : source.format = .planar subsampling) :
    ∃ y u v : ByteArray,
      t = .planar ⟨source.size, y⟩ ⟨subsampling.chromaSize source.size, u⟩
        ⟨subsampling.chromaSize source.size, v⟩ ∧
      y.size = source.size.area ∧ u.size = (subsampling.chromaSize source.size).area ∧
      v.size = (subsampling.chromaSize source.size).area := by
  unfold blank at h
  rw [hf] at h
  cases t with
  | packed => exact h.elim
  | planar y u v =>
    obtain ⟨ysize, y⟩ := y
    obtain ⟨usize, u⟩ := u
    obtain ⟨vsize, v⟩ := v
    obtain ⟨⟨hy, hys⟩, ⟨hu, hus⟩, ⟨hv, hvs⟩⟩ := h
    dsimp only [PlaneTexture.blank] at hy hys hu hus hv hvs
    rw [size_zeros] at hys hus hvs
    subst hy hu hv
    exact ⟨y, u, v, rfl, hys, hus, hvs⟩

/-- A frame that fits is taken by the texture of its source. -/
theorem upload_of_fits (role : Role) (h : Alike t (blank source)) (hf : frame.Fits source)
    (ha : frame.Addressable) : (t.upload role source.format.packing frame).2 = .ok () := by
  cases hformat : source.format with
  | packed order =>
    obtain ⟨texels, rfl, hsize⟩ := shape_of_packed h hformat
    obtain ⟨b, rfl, hsuits⟩ := Frame.packed_of_fits hf hformat
    obtain ⟨bytes, hbytes⟩ := overwrite_of_suits hsuits ha (by decide) hsize
    unfold upload
    dsimp only
    rw [hbytes]
  | planar subsampling =>
    obtain ⟨y, u, v, rfl, hysize, husize, hvsize⟩ := shape_of_planar h hformat
    obtain ⟨p, rfl, hysuits, husuits, hvsuits⟩ := Frame.planar_of_fits hf hformat
    have taken : ∀ {b : Buffer} {size : Size} {m : ByteArray}, b.Suits size 1 → b.Addressable →
        m.size = size.area → ∃ bytes, overwrite m b 1 = .ok bytes := by
      intro b size m hb ha hm
      apply overwrite_of_suits hb ha (by decide)
      rw [hm, Nat.mul_one]
    obtain ⟨ybytes, hy⟩ := taken hysuits ha.1 hysize
    obtain ⟨ubytes, hu⟩ := taken husuits ha.2.1 husize
    obtain ⟨vbytes, hv⟩ := taken hvsuits ha.2.2 hvsize
    unfold upload
    dsimp only
    rw [hy]
    dsimp only
    rw [hu]
    dsimp only
    rw [hv]

/-- A packed texture that has taken a frame has the bytes of its buffer for a memory. -/
theorem upload_packed_ok {size : Size} {order : ChannelOrder} {texels : ByteArray} {b : Buffer}
    {declared : Packing}
    (hok : ((packed size order texels).upload role declared (.packed b)).2 = .ok ()) :
    ∃ bytes, overwrite texels b packedChannels = .ok bytes ∧
      ((packed size order texels).upload role declared (.packed b)).1 =
        packed size order bytes := by
  unfold upload at hok ⊢
  dsimp only at hok ⊢
  cases hbytes : overwrite texels b packedChannels with
  | error =>
    rw [hbytes] at hok
    cases hok
  | ok bytes => exact ⟨bytes, rfl, rfl⟩

/-- A planar texture that has taken a frame has the bytes of each plane for a memory. -/
theorem upload_planar_ok {y u v : PlaneTexture} {planes : Planes} {declared : Packing}
    (hok : ((planar y u v).upload role declared (.planar planes)).2 = .ok ()) :
    ∃ ybytes ubytes vbytes, overwrite y.samples planes.y 1 = .ok ybytes ∧
      overwrite u.samples planes.u 1 = .ok ubytes ∧
      overwrite v.samples planes.v 1 = .ok vbytes ∧
      ((planar y u v).upload role declared (.planar planes)).1 =
        planar ⟨y.size, ybytes⟩ ⟨u.size, ubytes⟩ ⟨v.size, vbytes⟩ := by
  unfold upload at hok ⊢
  dsimp only at hok ⊢
  cases hy : overwrite y.samples planes.y 1 with
  | error =>
    rw [hy] at hok
    cases hok
  | ok ybytes =>
    rw [hy] at hok
    dsimp only at hok ⊢
    cases hu : overwrite u.samples planes.u 1 with
    | error =>
      rw [hu] at hok
      cases hok
    | ok ubytes =>
      rw [hu] at hok
      dsimp only at hok ⊢
      cases hv : overwrite v.samples planes.v 1 with
      | error =>
        rw [hv] at hok
        cases hok
      | ok vbytes => exact ⟨ybytes, ubytes, vbytes, rfl, rfl, rfl, rfl⟩

/-- A texture that has taken a frame holds it. -/
theorem holds_of_upload (h : Alike t (blank source)) (hf : frame.Fits source)
    (hok : (t.upload role source.format.packing frame).2 = .ok ()) :
    (t.upload role source.format.packing frame).1.Holds source.format frame := by
  cases hformat : source.format with
  | packed order =>
    obtain ⟨texels, rfl, hsize⟩ := shape_of_packed h hformat
    obtain ⟨b, rfl, hsuits⟩ := Frame.packed_of_fits hf hformat
    rw [hformat] at hok
    obtain ⟨bytes, hbytes, heq⟩ := upload_packed_ok hok
    rw [heq]
    rw [← hsuits.1] at hsize
    exact ⟨hsuits.1.symm, rfl, fills_of_overwrite hbytes (by decide) (by decide) hsize⟩
  | planar subsampling =>
    obtain ⟨y, u, v, rfl, hysize, husize, hvsize⟩ := shape_of_planar h hformat
    obtain ⟨p, rfl, hysuits, husuits, hvsuits⟩ := Frame.planar_of_fits hf hformat
    rw [hformat] at hok
    have held : ∀ {b : Buffer} {size : Size} {m bytes : ByteArray}, b.Suits size 1 →
        m.size = size.area → overwrite m b 1 = .ok bytes →
        (⟨size, bytes⟩ : PlaneTexture).Holds b := by
      intro b size m bytes hb hm hbytes
      refine ⟨hb.1.symm, fills_of_overwrite hbytes (by decide) (by decide) ?_⟩
      rw [hm, hb.1, Nat.mul_one]
    obtain ⟨ybytes, ubytes, vbytes, hy, hu, hv, heq⟩ := upload_planar_ok hok
    rw [heq]
    exact ⟨held hysuits hysize hy, held husuits husize hu, held hvsuits hvsize hv⟩

end Texture

/-! ## The states of a backend -/

namespace Raster.State

/-- The states that a backend comes to by uploads and drawings, whether somebody takes its pictures
or not. -/
inductive Reached {α : Type} (c : Config α) : State → Prop where
  | create {s} (h : create c = .ok s) : Reached c s
  | upload {s} (h : Reached c s) (role : Role) (frame : Frame) :
      Reached c (s.upload role frame).state
  | render {s} (h : Reached c s) (ops : List (DrawOp Float32)) (stamp : Stamp) :
      Reached c (s.render ops stamp).state
  | disconnect {s} (h : Reached c s) : Reached c s.disconnect

variable {α : Type} {c : Config α} {s : State} {role : Role} {frame : Frame}

/-- Declared formats, sizes of textures and size of the canvas are those of the settings. -/
structure Shaped (s : State) (c : Config α) : Prop where
  declared : s.declared = c.sources
  canvas : s.canvas.Alike (.blank c.output)
  texture : ∀ r, (s.textures.get r).Alike (.blank (c.sources.get r))

theorem create_eq_ok : create c = .ok s ↔ reserve (memories c) = .ok () ∧ s = blank c := by
  unfold create
  cases hr : reserve (memories c) with
  | error => simp [bind, Except.bind]
  | ok => simp [bind, Except.bind, pure, Except.pure, eq_comm]

theorem shaped_create (h : create c = .ok s) : s.Shaped c := by
  obtain ⟨_, rfl⟩ := create_eq_ok.mp h
  refine ⟨rfl, Canvas.alike_refl _, ?_⟩
  intro r
  unfold blank
  rw [Both.get_map]
  exact Texture.alike_refl _

/-- A frame that does not fit is refused with the fault of the check, and changes nothing. -/
theorem upload_of_invalid {fault : BufferFault}
    (hv : frame.validateFor role (s.declared.get role) = .error fault) :
    s.upload role frame = ⟨s, .failed (.invalidBuffer fault), []⟩ := by
  unfold upload
  dsimp only
  rw [hv]

theorem shaped_upload (h : s.Shaped c) (role : Role) (frame : Frame) :
    (s.upload role frame).state.Shaped c := by
  cases hv : frame.validateFor role (s.declared.get role) with
  | error fault =>
    rw [upload_of_invalid hv]
    exact h
  | ok =>
    rw [(upload_of_valid hv).1]
    refine ⟨h.declared, h.canvas, ?_⟩
    intro r
    change ((s.textures.set role _).get r).Alike _
    rw [Both.get_set]
    split
    · rename_i hr
      rw [← hr]
      exact Texture.alike_trans Texture.alike_upload (h.texture role)
    · exact h.texture r

theorem shaped_render (h : s.Shaped c) (ops : List (DrawOp Float32)) (stamp : Stamp) :
    (s.render ops stamp).state.Shaped c := by
  unfold render
  split
  · exact h
  · rename_i canvas hdraw
    have hcanvas : canvas.Alike (.blank c.output) :=
      ((Canvas.alike_drawAll hdraw).trans (Canvas.clear_self _)).trans h.canvas
    dsimp only
    split
    · exact ⟨h.declared, hcanvas, h.texture⟩
    · exact ⟨h.declared, hcanvas, h.texture⟩

theorem shaped_disconnect (h : s.Shaped c) : s.disconnect.Shaped c :=
  ⟨h.declared, h.canvas, h.texture⟩

theorem shaped_of_reached (h : Reached c s) : s.Shaped c := by
  induction h with
  | create h => exact shaped_create h
  | upload _ role frame ih => exact shaped_upload ih role frame
  | render _ ops stamp ih => exact shaped_render ih ops stamp
  | disconnect _ ih => exact shaped_disconnect ih

/-- The state after a frame was taken. -/
theorem upload_of_taken (hv : frame.validateFor role (s.declared.get role) = .ok ())
    (hok : ((s.textures.get role).upload role (s.declared.get role).format.packing frame).2 =
      .ok ()) :
    s.upload role frame =
      ⟨{ s with
          textures := s.textures.set role
            ((s.textures.get role).upload role (s.declared.get role).format.packing frame).1 },
        .done (), []⟩ := by
  unfold upload
  dsimp only
  rw [hv]
  dsimp only
  rw [hok]

/-- A texture takes a frame if and only if the frame fits what its source declares. It then holds
the addressed bytes of the frame, without a crash and without another fault, and all else is as it
was. A frame that does not fit is refused as a whole. -/
theorem frames_are_taken_whole_or_not_at_all (hs : Reached c s) (role : Role) (frame : Frame)
    (ha : frame.Addressable) :
    let source := c.sources.get role
    let reply := s.upload role frame
    reply.effects = [] ∧
      (reply.outcome = .done () ↔ frame.Fits source) ∧
      (frame.Fits source →
        ((s.textures.get role).upload role source.format.packing frame).2 = .ok () ∧
          (reply.state.textures.get role).Holds source.format frame ∧
          reply.state =
            { s with textures := s.textures.set role (reply.state.textures.get role) }) ∧
      (¬ frame.Fits source →
        reply.state = s ∧
          ∃ fault, frame.validateFor role source = .error fault ∧
            reply.outcome = .failed (.invalidBuffer fault)) := by
  intro source reply
  have hshaped := shaped_of_reached hs
  have hdeclared : s.declared.get role = source := by rw [hshaped.declared]
  cases hv : frame.validateFor role source with
  | error fault =>
    have hfit : ¬ frame.Fits source := by
      rw [← Frame.validateFor_eq_ok role, hv]
      nofun
    have hreply : reply = ⟨s, .failed (.invalidBuffer fault), []⟩ := by
      rw [← hdeclared] at hv
      exact upload_of_invalid hv
    rw [hreply]
    refine ⟨rfl, ⟨nofun, fun h => absurd h hfit⟩, fun h => absurd h hfit, ?_⟩
    intro _
    exact ⟨rfl, fault, rfl, rfl⟩
  | ok =>
    have hfit : frame.Fits source := (Frame.validateFor_eq_ok role).mp hv
    have hok := Texture.upload_of_fits role (hshaped.texture role) hfit ha
    have hholds := Texture.holds_of_upload (hshaped.texture role) hfit hok
    have hreply := upload_of_taken (s := s) (hdeclared ▸ hv) (hdeclared ▸ hok)
    rw [hdeclared] at hreply
    change reply = _ at hreply
    rw [hreply]
    refine ⟨rfl, ⟨fun _ => hfit, fun _ => rfl⟩, ?_, fun h => absurd hfit h⟩
    intro _
    rw [Both.get_set_self]
    exact ⟨hok, hholds, rfl⟩

/-- A planar frame with gaps and padding is taken. When it comes again with a V plane that is one
byte too short, neither luma nor U is written. -/
theorem a_short_plane_spoils_nothing :
    let c : Config Float32 := .withSizes ⟨2, 2⟩ ⟨3, 3⟩ ⟨1, 1⟩
    let luma : Buffer := ⟨3, 3, 5, 1, ⟨#[1, 2, 3, 0, 0, 4, 5, 6, 0, 0, 7, 8, 9]⟩⟩
    let chroma : Buffer := ⟨2, 2, 4, 2, ⟨#[10, 90, 11, 91, 12, 92, 13]⟩⟩
    let short : Buffer := ⟨2, 2, 4, 2, ⟨#[10, 90, 11, 91, 12, 92]⟩⟩
    let whole : Frame := .planar ⟨luma, chroma, chroma⟩
    let torn : Frame := .planar ⟨{ luma with data := ⟨#[0]⟩ ++ luma.data }, chroma, short⟩
    let s := ((blank c).upload .secondary whole).state
    Reached c (blank c) ∧ Reached c s ∧ whole.Addressable ∧ torn.Addressable ∧
      ((blank c).upload .secondary whole).outcome = .done () ∧
      (s.textures.get .secondary).Holds (.planar .yuv420) whole ∧
      (s.upload .secondary torn).state = s ∧
      (s.upload .secondary torn).outcome = .failed (.invalidBuffer (.truncated 7 6)) := by
  intro c luma chroma short whole torn s
  have hnew : Reached c (blank c) := .create (create_eq_ok.mpr ⟨by decide +kernel, rfl⟩)
  have hs : Reached c s := hnew.upload .secondary whole
  have hwhole : whole.Addressable := by
    refine ⟨?_, ?_, ?_⟩ <;> unfold Buffer.Addressable <;> decide
  have htorn : torn.Addressable := by
    refine ⟨?_, ?_, ?_⟩ <;> unfold Buffer.Addressable <;> decide
  have hfit : whole.Fits (c.sources.get .secondary) :=
    (Frame.validateFor_eq_ok .secondary).mp (by decide +kernel)
  have hfault : torn.validateFor .secondary (c.sources.get .secondary) =
      .error (.truncated 7 6) := by
    decide +kernel
  have hunfit : ¬ torn.Fits (c.sources.get .secondary) := by
    rw [← Frame.validateFor_eq_ok .secondary, hfault]
    nofun
  obtain ⟨_, htaken, hheld, _⟩ :=
    frames_are_taken_whole_or_not_at_all hnew .secondary whole hwhole
  obtain ⟨_, _, _, hrefused⟩ := frames_are_taken_whole_or_not_at_all hs .secondary torn htorn
  obtain ⟨hsame, fault, hvalid, houtcome⟩ := hrefused hunfit
  rw [hfault] at hvalid
  cases hvalid
  exact ⟨hnew, hs, hwhole, htorn, htaken.mpr hfit, (hheld hfit).2.1, hsame, houtcome⟩

end Raster.State

end PictureInPicture
