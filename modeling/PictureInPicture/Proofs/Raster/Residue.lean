-- Nothing of an earlier picture stays. An upload leaves in a texture what it would leave in a
-- new one, and a drawing leaves on the canvas what it would leave on a new one.
import PictureInPicture.Raster.Backend

namespace PictureInPicture

/-! ## Textures -/

/-- A memory is overwritten as a whole, so only its length counts. -/
theorem overwrite_congr {m m' : ByteArray} (h : m.size = m'.size) (b : Buffer) (channels : Nat) :
    overwrite m b channels = overwrite m' b channels := by
  unfold overwrite
  rw [h]

theorem size_overwrite {m bytes : ByteArray} {b : Buffer} {channels : Nat}
    (h : overwrite m b channels = .ok bytes) : bytes.size = m.size := by
  unfold overwrite at h
  split at h
  · cases h
  · split at h
    · rename_i hsize
      cases h
      exact hsize
    · cases h

/-- A buffer that passes its check is not refused later. -/
theorem overwrite_of_valid {m : ByteArray} {b : Buffer} {channels : Nat}
    (hv : b.validate channels.toUInt64 = .ok ()) (fault : BufferFault) :
    overwrite m b channels ≠ .error (.refused fault) := by
  intro h
  unfold overwrite Buffer.tightBytes at h
  rw [hv] at h
  dsimp only at h
  split at h
  · rename_i stop htight
    cases h
    split at htight
    · split at htight <;> cases htight
    · cases hpack : b.pack channels.toUInt64 <;> rw [hpack] at htight <;> cases htight
  · split at h <;> cases h

theorem valid_of_checkPlane {plane : Plane} {size : Size} {channels : UInt64} {b : Buffer}
    (h : Planes.checkPlane plane size channels b = .ok ()) : b.validate channels = .ok () := by
  unfold Planes.checkPlane at h
  split at h
  · cases h
  · exact h

theorem valid_of_planes {planes : Planes} {luma : Size} {subsampling : Subsampling}
    (h : planes.validate luma subsampling = .ok ()) :
    planes.y.validate 1 = .ok () ∧ planes.u.validate 1 = .ok () ∧ planes.v.validate 1 = .ok () := by
  unfold Planes.validate at h
  dsimp only at h
  cases hy : Planes.checkPlane .luma luma 1 planes.y with
  | error => rw [hy] at h; cases h
  | ok =>
    cases hu : Planes.checkPlane .chromaU (subsampling.chromaSize luma) 1 planes.u with
    | error => rw [hy, hu] at h; cases h
    | ok =>
      rw [hy, hu] at h
      exact ⟨valid_of_checkPlane hy, valid_of_checkPlane hu, valid_of_checkPlane h⟩

/-- Two planes of one size and one length. -/
def PlaneTexture.Alike (p q : PlaneTexture) : Prop :=
  p.size = q.size ∧ p.samples.size = q.samples.size

namespace Texture

/-- Two textures that differ in nothing but their samples. -/
def Alike : Texture → Texture → Prop
  | packed size order texels, packed size' order' texels' =>
    size = size' ∧ order = order' ∧ texels.size = texels'.size
  | planar y u v, planar y' u' v' => y.Alike y' ∧ u.Alike u' ∧ v.Alike v'
  | _, _ => False

variable {t t' : Texture} {role : Role} {declared : Packing} {frame : Frame}

theorem alike_refl (t : Texture) : Alike t t := by
  cases t with
  | packed => exact ⟨rfl, rfl, rfl⟩
  | planar => exact ⟨⟨rfl, rfl⟩, ⟨rfl, rfl⟩, ⟨rfl, rfl⟩⟩

/-- Textures that differ in nothing but their samples take a frame in the same way, and are the
same when they have taken it. -/
theorem upload_alike (h : Alike t t') :
    (t.upload role declared frame).2 = (t'.upload role declared frame).2 ∧
      ((t.upload role declared frame).2 = .ok () →
        (t.upload role declared frame).1 = (t'.upload role declared frame).1) := by
  cases t with
  | packed size order texels =>
    cases t' with
    | planar => exact h.elim
    | packed size' order' texels' =>
      obtain ⟨rfl, rfl, hsize⟩ := h
      cases frame with
      | planar => exact ⟨rfl, nofun⟩
      | packed buffer =>
        unfold upload
        dsimp only
        rw [overwrite_congr hsize]
        cases overwrite texels' buffer packedChannels with
        | ok => exact ⟨rfl, fun _ => rfl⟩
        | error => exact ⟨rfl, nofun⟩
  | planar y u v =>
    cases t' with
    | packed => exact h.elim
    | planar y' u' v' =>
      obtain ⟨⟨hy, hys⟩, ⟨hu, hus⟩, ⟨hv, hvs⟩⟩ := h
      cases frame with
      | packed => exact ⟨rfl, nofun⟩
      | planar planes =>
        unfold upload
        dsimp only
        rw [overwrite_congr hys, overwrite_congr hus, overwrite_congr hvs, hy, hu, hv]
        cases overwrite y'.samples planes.y 1 with
        | error => exact ⟨rfl, nofun⟩
        | ok =>
          dsimp only
          cases overwrite u'.samples planes.u 1 with
          | error => exact ⟨rfl, nofun⟩
          | ok =>
            dsimp only
            cases overwrite v'.samples planes.v 1 with
            | error => exact ⟨rfl, nofun⟩
            | ok => exact ⟨rfl, fun _ => rfl⟩

/-- An upload changes nothing but samples. -/
theorem alike_upload : Alike (t.upload role declared frame).1 t := by
  cases t with
  | packed size order texels =>
    cases frame with
    | planar => exact alike_refl _
    | packed buffer =>
      unfold upload
      dsimp only
      cases h : overwrite texels buffer packedChannels with
      | ok bytes => exact ⟨rfl, rfl, size_overwrite h⟩
      | error => exact alike_refl _
  | planar y u v =>
    cases frame with
    | packed => exact alike_refl _
    | planar planes =>
      unfold upload
      dsimp only
      cases hy : overwrite y.samples planes.y 1 with
      | error => exact alike_refl _
      | ok =>
        dsimp only
        cases hu : overwrite u.samples planes.u 1 with
        | error => exact ⟨⟨rfl, size_overwrite hy⟩, ⟨rfl, rfl⟩, ⟨rfl, rfl⟩⟩
        | ok =>
          dsimp only
          cases hv : overwrite v.samples planes.v 1 with
          | error => exact ⟨⟨rfl, size_overwrite hy⟩, ⟨rfl, size_overwrite hu⟩, ⟨rfl, rfl⟩⟩
          | ok =>
            exact ⟨⟨rfl, size_overwrite hy⟩, ⟨rfl, size_overwrite hu⟩, ⟨rfl, size_overwrite hv⟩⟩

/-- A frame that passes its check is not refused by the texture of its source. -/
theorem upload_of_valid {source : Source} (ht : Alike t (blank source))
    (hv : frame.validateFor role source = .ok ()) (fault : BufferFault) :
    (t.upload role declared frame).2 ≠ .error (.refused fault) := by
  unfold Frame.validateFor at hv
  unfold blank at ht
  cases hformat : source.format with
  | packed order =>
    rw [hformat] at hv ht
    cases t with
    | planar => exact ht.elim
    | packed size order texels =>
      cases frame with
      | planar => cases hv
      | packed buffer =>
        have hcheck : buffer.validate packedChannels.toUInt64 = .ok () := valid_of_checkPlane hv
        unfold upload
        dsimp only
        cases h : overwrite texels buffer packedChannels with
        | ok => nofun
        | error stop =>
          rintro hstop
          cases hstop
          exact overwrite_of_valid hcheck fault h
  | planar subsampling =>
    rw [hformat] at hv ht
    cases t with
    | packed => exact ht.elim
    | planar y u v =>
      cases frame with
      | packed => cases hv
      | planar planes =>
        obtain ⟨hy, hu, hv⟩ := valid_of_planes hv
        unfold upload
        dsimp only
        split
        · rename_i h
          rintro hstop
          cases hstop
          exact overwrite_of_valid hy fault h
        · split
          · rename_i h
            rintro hstop
            cases hstop
            exact overwrite_of_valid hu fault h
          · split
            · rename_i h
              rintro hstop
              cases hstop
              exact overwrite_of_valid hv fault h
            · nofun

end Texture

/-! ## The canvas -/

namespace Canvas

variable {α : Type} {c c' : Canvas α}

/-- Two canvases of one size with the same number of pixels. -/
def Alike (c c' : Canvas α) : Prop := c.size = c'.size ∧ c.pixels.size = c'.pixels.size

theorem alike_refl (c : Canvas α) : c.Alike c := ⟨rfl, rfl⟩

theorem Alike.trans {c'' : Canvas α} (h : c.Alike c') (h' : c'.Alike c'') : c.Alike c'' :=
  ⟨h.1.trans h'.1, h.2.trans h'.2⟩

/-- Steps that leave size and number of pixels alone do so together. -/
theorem alike_foldlM {β : Type} {f : Canvas α → β → Except Crash (Canvas α)}
    (hf : ∀ c x c', f c x = .ok c' → c'.Alike c) {l : List β} (h : l.foldlM f c = .ok c') :
    c'.Alike c := by
  induction l generalizing c with
  | nil =>
    cases h
    exact alike_refl _
  | cons x l ih =>
    rw [List.foldlM_cons] at h
    cases hx : f c x with
    | error => rw [hx] at h; cases h
    | ok next =>
      rw [hx] at h
      exact (ih h).trans (hf c x next hx)

variable [Scalar α]

/-- Canvases that differ in nothing but their colors are the same when they are cleared. -/
theorem clear_alike (h : c.Alike c') : c.clear = c'.clear := by
  unfold clear
  rw [h.1]
  congr 1
  refine Array.ext ?_ fun i hi hi' => ?_
  · simpa using h.2
  · simp

theorem clear_self (c : Canvas α) : c.clear.Alike c := ⟨rfl, by simp [clear]⟩

theorem alike_blend {x y : Nat} {src : Color α} (h : c.blend x y src = .ok c') : c'.Alike c := by
  unfold blend at h
  dsimp only at h
  split at h
  · cases h
    exact ⟨rfl, by simp⟩
  · cases h

theorem alike_paint {span : Span} {shade : Nat → Nat → Except Crash (Color α)}
    (h : c.paint span shade = .ok c') : c'.Alike c := by
  unfold paint at h
  split at h
  · cases h
    exact alike_refl c
  · refine alike_foldlM (fun c y c' hrow => alike_foldlM (fun c x c' hpixel => ?_) hrow) h
    split at hpixel
    · cases hpixel
    · exact alike_blend hpixel

theorem alike_outline {rect : Rect α} {color : Color α} (h : c.outline rect color = .ok c') :
    c'.Alike c := by
  have pair : ∀ {c c' : Canvas α} {x y x' y' : Nat} {p : Prop} [Decidable p],
      (do
        let c ← c.blend x y color
        if p then c.blend x' y' color else return c) = Except.ok c' → c'.Alike c := by
    intro c c' x y x' y' p _ h
    cases hfirst : c.blend x y color with
    | error => rw [hfirst] at h; cases h
    | ok next =>
      rw [hfirst] at h
      change (if p then next.blend x' y' color else .ok next) = .ok c' at h
      refine Alike.trans ?_ (alike_blend hfirst)
      split at h
      · exact alike_blend h
      · cases h
        exact alike_refl _
  unfold outline at h
  dsimp only at h
  split at h
  · cases h
    exact alike_refl _
  · generalize hspan : Span.of rect c.size = span at h
    cases hrows : span.columns.foldlM (fun c x => do
        let c ← c.blend x span.top color
        if span.bottom - 1 ≠ span.top then c.blend x (span.bottom - 1) color else return c) c with
    | error => rw [hrows] at h; cases h
    | ok next =>
      rw [hrows] at h
      exact (alike_foldlM (fun _ _ _ hpair => pair hpair) h).trans
        (alike_foldlM (fun _ _ _ hpair => pair hpair) hrows)

theorem alike_draw {textures : Both Texture} {op : DrawOp α}
    (h : c.draw textures op = .ok c') : c'.Alike c := by
  cases op with
  | fill =>
    unfold draw fill at h
    exact alike_paint h
  | outline => exact alike_outline h
  | layer =>
    unfold draw drawLayer at h
    exact alike_paint h

theorem alike_drawAll {textures : Both Texture} {ops : List (DrawOp α)}
    (h : c.drawAll textures ops = .ok c') : c'.Alike c :=
  alike_foldlM (fun _ _ _ hop => alike_draw hop) h

end Canvas

/-! ## The backend -/

namespace Raster.State

variable {α : Type} {c : Config α} {s s' : State} {latest : Both (Option Frame)} {role : Role}
  {frame : Frame}

/-- A new texture of a source, with a frame if there is one. -/
def pictured (source : Source) (role : Role) : Option Frame → Texture
  | none => .blank source
  | some frame => ((Texture.blank source).upload role source.format.packing frame).1

theorem alike_pictured (source : Source) (role : Role) (frame : Option Frame) :
    (pictured source role frame).Alike (.blank source) := by
  cases frame with
  | none => exact Texture.alike_refl _
  | some frame => exact Texture.alike_upload

/-- The backend holds the latest frames as new textures would hold them, and nothing else that a
picture could show. -/
structure Shows (s : State) (c : Config α) (latest : Both (Option Frame)) : Prop where
  declared : s.declared = c.sources
  receiving : s.receiving = true
  canvas : s.canvas.Alike (.blank c.output)
  texture : ∀ r, s.textures.get r = pictured (c.sources.get r) r (latest.get r)

theorem shows_blank (c : Config α) : (blank c).Shows c (.twice none) := by
  refine ⟨rfl, rfl, Canvas.alike_refl _, fun r => ?_⟩
  unfold blank
  rw [Both.get_map, Both.get_twice]
  rfl

/-! ### Uploads -/

/-- The backend hands a frame that passes the check to the texture of its source. -/
theorem upload_of_valid (hv : frame.validateFor role (s.declared.get role) = .ok ()) :
    let taken := (s.textures.get role).upload role (s.declared.get role).format.packing frame
    (s.upload role frame).state = { s with textures := s.textures.set role taken.1 } ∧
      (s.upload role frame).effects = [] ∧
      (s.upload role frame).outcome = match taken.2 with
        | .ok () => .done ()
        | .error (.refused fault) => .failed (.invalidBuffer fault)
        | .error (.crashed crash) => .crashed crash := by
  unfold upload
  dsimp only
  rw [hv]
  dsimp only
  generalize (s.textures.get role).upload role _ frame = taken
  obtain ⟨texture, result⟩ := taken
  cases result with
  | ok => exact ⟨rfl, rfl, rfl⟩
  | error stop => cases stop <;> exact ⟨rfl, rfl, rfl⟩

theorem shows_set (h : s.Shows c latest) {texture : Texture}
    (ht : texture = pictured (c.sources.get role) role (some frame)) :
    Shows { s with textures := s.textures.set role texture } c (latest.set role (some frame)) := by
  refine ⟨h.declared, h.receiving, h.canvas, fun r => ?_⟩
  change (s.textures.set role texture).get r = _
  rw [Both.get_set, Both.get_set]
  split
  · rename_i hr
    rw [ht, hr]
  · exact h.texture r

/-- A frame that passes the check takes the place of an older one, unless the upload crashes. -/
theorem upload_of_shows (h : s.Shows c latest)
    (hv : frame.validateFor role (c.sources.get role) = .ok ()) :
    (s.upload role frame).effects = [] ∧
      ((s.upload role frame).outcome = .done () ∧
        (s.upload role frame).state.Shows c (latest.set role (some frame)) ∨
      ∃ crash, (s.upload role frame).outcome = .crashed crash) := by
  have hdeclared : s.declared.get role = c.sources.get role := by rw [h.declared]
  rw [← hdeclared] at hv
  obtain ⟨hstate, heffects, houtcome⟩ := upload_of_valid hv
  rw [hdeclared] at hv hstate houtcome
  refine ⟨heffects, ?_⟩
  have hshape := alike_pictured (c.sources.get role) role (latest.get role)
  rw [← h.texture] at hshape
  have hsame (hok : ((s.textures.get role).upload role (c.sources.get role).format.packing
      frame).2 = .ok ()) := (Texture.upload_alike hshape).2 hok
  cases hresult : ((s.textures.get role).upload role (c.sources.get role).format.packing
      frame).2 with
  | ok =>
    rw [hresult] at houtcome
    refine .inl ⟨houtcome, ?_⟩
    rw [hstate]
    exact shows_set h (hsame hresult)
  | error stop =>
    cases stop with
    | refused fault => exact absurd hresult (Texture.upload_of_valid hshape hv fault)
    | crashed crash =>
      rw [hresult] at houtcome
      exact .inr ⟨crash, houtcome⟩

/-- The backend after the upload of a frame, if there is one. -/
def given (s : State) (role : Role) : Option Frame → State
  | none => s
  | some frame => (s.upload role frame).state

/-- The backend after the upload of the latest frames and of nothing else. -/
def showing (s : State) (latest : Both (Option Frame)) : State :=
  Role.all.foldl (fun s role => s.given role (latest.get role)) s

theorem shows_upload_new (h : s.Shows c latest) (hnone : latest.get role = none)
    (hv : frame.validateFor role (c.sources.get role) = .ok ()) :
    (s.upload role frame).state.Shows c (latest.set role (some frame)) := by
  have hdeclared : s.declared.get role = c.sources.get role := by rw [h.declared]
  rw [← hdeclared] at hv
  rw [(upload_of_valid hv).1]
  refine shows_set h ?_
  rw [h.texture, hnone, hdeclared]
  rfl

theorem shows_showing (hv : ∀ role frame, latest.get role = some frame →
    frame.validateFor role (c.sources.get role) = .ok ()) :
    ((blank c).showing latest).Shows c latest := by
  obtain ⟨primary, secondary⟩ := latest
  have hprimary : ((blank c).given .primary primary).Shows c ⟨primary, none⟩ := by
    cases primary with
    | none => exact shows_blank c
    | some frame => exact shows_upload_new (shows_blank c) rfl (hv .primary frame rfl)
  cases secondary with
  | none => exact hprimary
  | some frame => exact shows_upload_new hprimary rfl (hv .secondary frame rfl)

/-! ### Drawing -/

/-- Backends that hold the same latest frames draw the same pictures. -/
theorem render_of_shows (h : s.Shows c latest) (h' : s'.Shows c latest)
    (ops : List (DrawOp Float32)) (stamp : Stamp) :
    (s.render ops stamp).effects = (s'.render ops stamp).effects := by
  have hcanvas : s.canvas.clear = s'.canvas.clear :=
    Canvas.clear_alike ⟨h.canvas.1.trans h'.canvas.1.symm, h.canvas.2.trans h'.canvas.2.symm⟩
  have htextures : s.textures = s'.textures :=
    Both.ext_get fun r => (h.texture r).trans (h'.texture r).symm
  unfold render
  rw [hcanvas, htextures, h.receiving, h'.receiving]
  split <;> rfl

/-- A drawing that does not crash is one picture for the receiver. -/
theorem render_of_receiving (h : s.receiving = true) (ops : List (DrawOp Float32))
    (stamp : Stamp) :
    ((s.render ops stamp).outcome = .done .presented ∧
        ∃ frame, (s.render ops stamp).effects = [.frame frame]) ∨
      ∃ crash, (s.render ops stamp).outcome = .crashed crash := by
  unfold render
  rw [h]
  split
  · exact .inr ⟨_, rfl⟩
  · exact .inl ⟨rfl, _, rfl⟩

theorem shows_render (h : s.Shows c latest) (ops : List (DrawOp Float32)) (stamp : Stamp) :
    (s.render ops stamp).state.Shows c latest := by
  unfold render
  split
  · exact h
  · rename_i canvas hdraw
    have hcanvas : canvas.Alike (.blank c.output) :=
      ((Canvas.alike_drawAll hdraw).trans (Canvas.clear_self _)).trans h.canvas
    rw [h.receiving]
    exact ⟨h.declared, rfl, hcanvas, h.texture⟩

end Raster.State

end PictureInPicture
