-- What of a frame can be seen. Two backends whose sources differ only in the order of their color
-- bytes, and whose frames show the same picture, draw the same pictures. Strides, padding, gaps,
-- bytes behind the last row and the fourth byte of a packed pixel make no difference.
import PictureInPicture.Proofs.Raster.Reference

namespace PictureInPicture

/-! ## The same picture -/

/-- Red, green and blue of some bytes in an order. -/
def ChannelOrder.pick {β : Type} (order : ChannelOrder) (bytes : Nat → β) : β × β × β :=
  match order with
  | rgba => (bytes 0, bytes 1, bytes 2)
  | bgra => (bytes 2, bytes 1, bytes 0)

/-- Two sources of one size and one layout. The order of the color bytes may differ. -/
def Source.Twin (source source' : Source) : Prop :=
  source.size = source'.size ∧
    match source.format, source'.format with
    | .packed _, .packed _ => True
    | .planar subsampling, .planar subsampling' => subsampling = subsampling'
    | _, _ => False

theorem Source.formats_of_twin {source source' : Source} (h : source.Twin source') :
    (∃ order order', source.format = .packed order ∧ source'.format = .packed order') ∨
      ∃ subsampling, source.format = .planar subsampling ∧
        source'.format = .planar subsampling := by
  have hformats := h.2
  cases hf : source.format with
  | packed order =>
    cases hf' : source'.format with
    | packed order' => exact .inl ⟨order, order', rfl, rfl⟩
    | planar =>
      rw [hf, hf'] at hformats
      exact hformats.elim
  | planar subsampling =>
    cases hf' : source'.format with
    | packed =>
      rw [hf, hf'] at hformats
      exact hformats.elim
    | planar subsampling' =>
      rw [hf, hf'] at hformats
      cases hformats
      exact .inr ⟨subsampling, rfl, rfl⟩

/-- Settings that declare twin sources and one output. -/
structure Config.Twin {α : Type} (c c' : Config α) : Prop where
  output : c.output = c'.output
  source : ∀ r, (c.sources.get r).Twin (c'.sources.get r)

/-- Two planes that have the same samples. -/
def Buffer.SameSamples (b b' : Buffer) : Prop :=
  ∀ x y, x < b.width.toNat → y < b.height.toNat → b.byte? x y 0 = b'.byte? x y 0

/-- Two frames that show the same picture, each in the format of its own source. -/
def Frame.SameImage (frame : Frame) (format format' : PixelFormat) (frame' : Frame) : Prop :=
  match frame, frame', format, format' with
  | packed b, packed b', .packed order, .packed order' =>
    ∀ x y, x < b.width.toNat → y < b.height.toNat →
      order.pick (b.byte? x y) = order'.pick (b'.byte? x y)
  | planar p, planar p', .planar _, .planar _ =>
    p.y.SameSamples p'.y ∧ p.u.SameSamples p'.u ∧ p.v.SameSamples p'.v
  | _, _, _, _ => False

theorem ChannelOrder.pick_congr {β : Type} {order : ChannelOrder} {f g : Nat → β}
    (h : ∀ k, k < packedChannels → f k = g k) : order.pick f = order.pick g := by
  unfold pick
  rw [h 0 (by decide), h 1 (by decide), h 2 (by decide)]

/-! ## The same memory -/

namespace Buffer

variable {b b' : Buffer} {m m' : ByteArray} {i : Nat}

/-- A memory that is filled has nothing behind the last pixel. -/
theorem none_of_fills {n : Nat} (h : b.Fills n m) (hi : b.height.toNat * b.width.toNat ≤ i)
    (k : Nat) : m[i * n + k]? = none := by
  have hle := Nat.mul_le_mul_right n hi
  apply getElem?_neg
  rw [h.size_eq, ← Nat.mul_assoc]
  omega

/-- Memories that are filled with the same samples are the same. -/
theorem eq_of_sameSamples (h : b.Fills 1 m) (h' : b'.Fills 1 m') (hsize : b.size = b'.size)
    (hsame : b.SameSamples b') : m = m' := by
  obtain ⟨hw, hh⟩ := Size.mk.inj hsize
  apply ByteArray.ext
  apply Array.ext_getElem?
  intro i
  rw [← Bytes.getElem?_eq_data, ← Bytes.getElem?_eq_data, ← Nat.mul_one i]
  by_cases hi : i < b.height.toNat * b.width.toNat
  · obtain ⟨x, y, ⟨hx, hy⟩, rfl⟩ := pixel_of_place hi
    have hleft := h.byte x y 0 hx hy (by decide)
    have hright := h'.byte x y 0 (hw ▸ hx) (hh ▸ hy) (by decide)
    rw [← hw] at hright
    rw [Nat.add_zero] at hleft hright
    rw [hleft, hright]
    exact hsame x y hx hy
  · have hle := Nat.le_of_not_lt hi
    have hleft := none_of_fills h hle 0
    have hright := none_of_fills h' (hw ▸ hh ▸ hle) 0
    rw [Nat.add_zero] at hleft hright
    rw [hleft, hright]

/-- Memories that are filled with the same colors have the same colors at every place. -/
theorem pick_of_fills {order order' : ChannelOrder} (h : b.Fills packedChannels m)
    (h' : b'.Fills packedChannels m') (hsize : b.size = b'.size)
    (hsame : ∀ x y, x < b.width.toNat → y < b.height.toNat →
      order.pick (b.byte? x y) = order'.pick (b'.byte? x y)) (i : Nat) :
    order.pick (fun k => m[i * packedChannels + k]?) =
      order'.pick fun k => m'[i * packedChannels + k]? := by
  obtain ⟨hw, hh⟩ := Size.mk.inj hsize
  by_cases hi : i < b.height.toNat * b.width.toNat
  · obtain ⟨x, y, ⟨hx, hy⟩, rfl⟩ := pixel_of_place hi
    calc order.pick (fun k => m[(y * b.width.toNat + x) * packedChannels + k]?)
        = order.pick (b.byte? x y) := ChannelOrder.pick_congr fun k hk => h.byte x y k hx hy hk
      _ = order'.pick (b'.byte? x y) := hsame x y hx hy
      _ = order'.pick fun k => m'[(y * b.width.toNat + x) * packedChannels + k]? := by
        apply ChannelOrder.pick_congr
        intro k hk
        rw [hw]
        exact (h'.byte x y k (hw ▸ hx) (hh ▸ hy) hk).symm
  · have hle := Nat.le_of_not_lt hi
    have hleft := none_of_fills h hle
    have hright := none_of_fills h' (hw ▸ hh ▸ hle)
    simp only [hleft, hright]
    cases order <;> cases order' <;> rfl

end Buffer

/-! ## The same texture -/

namespace Texture

/-- Two textures that have the same colors, each in the order of its own. -/
def Twin (t t' : Texture) : Prop :=
  match t, t' with
  | packed size order texels, packed size' order' texels' =>
    size = size' ∧ texels.size = texels'.size ∧
      ∀ i, order.pick (fun k => texels[i * packedChannels + k]?) =
        order'.pick fun k => texels'[i * packedChannels + k]?
  | planar y u v, planar y' u' v' => y = y' ∧ u = u' ∧ v = v'
  | _, _ => False

variable {α : Type} [Scalar α] {t t' : Texture}

/-- The same red, green and blue are the same color, whatever their orders are. -/
theorem colorOfTexel_congr {order order' : ChannelOrder} {f f' : Nat → Option UInt8}
    {b₀ b₁ b₂ b₀' b₁' b₂' : UInt8} (h : order.pick f = order'.pick f')
    (hf : f 0 = some b₀ ∧ f 1 = some b₁ ∧ f 2 = some b₂)
    (hf' : f' 0 = some b₀' ∧ f' 1 = some b₁' ∧ f' 2 = some b₂') (opacity : α) :
    colorOfTexel order b₀ b₁ b₂ opacity = colorOfTexel order' b₀' b₁' b₂' opacity := by
  unfold ChannelOrder.pick at h
  unfold colorOfTexel
  cases order <;> cases order' <;>
    simp only [hf, hf', Prod.mk.injEq, Option.some.injEq] at h <;>
    simp only [h]

/-- Textures with the same colors show the same color at every point. -/
theorem sample_of_twin (h : t.Twin t') (p : TexPoint α) (opacity : α) :
    t.sample p opacity = t'.sample p opacity := by
  cases t with
  | packed size order texels =>
    cases t' with
    | planar => exact h.elim
    | packed size' order' texels' =>
      obtain ⟨rfl, hsize, hpick⟩ := h
      unfold sample
      dsimp only
      cases texelOffset size p with
      | error => rfl
      | ok index =>
        dsimp only
        by_cases hlt : index * packedChannels + 3 < texels.size
        · have hlt' : index * packedChannels + 3 < texels'.size := hsize ▸ hlt
          rw [dif_pos hlt, dif_pos hlt']
          apply congrArg Except.ok
          apply colorOfTexel_congr (hpick index)
          · exact ⟨getElem?_pos .., getElem?_pos .., getElem?_pos ..⟩
          · exact ⟨getElem?_pos .., getElem?_pos .., getElem?_pos ..⟩
        · have hge : ¬ index * packedChannels + 3 < texels'.size := hsize ▸ hlt
          rw [dif_neg hlt, dif_neg hge]
          exact congrArg (fun n => Except.error (Crash.sampleOutOfRange _ n)) hsize
  | planar y u v =>
    cases t' with
    | packed => exact h.elim
    | planar y' u' v' =>
      obtain ⟨rfl, rfl, rfl⟩ := h
      rfl

end Texture

theorem getElem?_zeros (n i : Nat) : (zeros n)[i]? = if i < n then some 0 else none := by
  have hlist : (zeros n).data.toList = List.replicate n 0 := by
    unfold zeros
    rw [Buffer.toList_data_replicate]
    exact List.flatten_replicate_singleton
  rw [Bytes.getElem?_eq_data, ← Array.getElem?_toList, hlist, List.getElem?_replicate]

/-- Planes of textures that hold the same samples are the same. -/
theorem PlaneTexture.eq_of_holds {t t' : PlaneTexture} {b b' : Buffer} (h : t.Holds b)
    (h' : t'.Holds b') (hsize : b.size = b'.size) (hsame : b.SameSamples b') : t = t' := by
  obtain ⟨size, samples⟩ := t
  obtain ⟨size', samples'⟩ := t'
  have hsizes : size = size' := h.1.trans (hsize.trans h'.1.symm)
  have hsamples : samples = samples' := Buffer.eq_of_sameSamples h.2 h'.2 hsize hsame
  rw [hsizes, hsamples]

namespace Texture

variable {source source' : Source}

/-- New textures of twin sources have the same colors. -/
theorem twin_blank (h : source.Twin source') : (blank source).Twin (blank source') := by
  have hsize := h.1
  unfold blank
  rcases Source.formats_of_twin h with ⟨order, order', hformat, hformat'⟩ |
    ⟨subsampling, hformat, hformat'⟩
  · rw [hformat, hformat', ← hsize]
    refine ⟨rfl, rfl, ?_⟩
    intro i
    -- A pixel lies in the memory with all of its bytes, or with none.
    have hall : ∀ k, k < packedChannels →
        (zeros (source.size.area * packedChannels))[i * packedChannels + k]? =
          if i < source.size.area then some 0 else none := by
      intro k hk
      unfold packedChannels at hk ⊢
      rw [getElem?_zeros]
      congr 1
      rw [eq_iff_iff]
      omega
    rw [ChannelOrder.pick_congr hall, ChannelOrder.pick_congr hall]
    cases order <;> cases order' <;> rfl
  · rw [hformat, hformat', ← hsize]
    exact ⟨rfl, rfl, rfl⟩

theorem packed_of_holds {t : Texture} {order : ChannelOrder} {b : Buffer}
    (h : t.Holds (.packed order) (.packed b)) :
    ∃ texels, t = .packed b.size order texels ∧ b.Fills packedChannels texels := by
  cases t with
  | planar => exact h.elim
  | packed size declared texels =>
    obtain ⟨rfl, rfl, hfills⟩ := h
    exact ⟨texels, rfl, hfills⟩

theorem planar_of_holds {t : Texture} {subsampling : Subsampling} {p : Planes}
    (h : t.Holds (.planar subsampling) (.planar p)) :
    ∃ y u v, t = .planar y u v ∧ y.Holds p.y ∧ u.Holds p.u ∧ v.Holds p.v := by
  cases t with
  | packed => exact h.elim
  | planar y u v => exact ⟨y, u, v, rfl, h⟩

/-- Textures of twin sources that hold the same picture have the same colors. -/
theorem twin_of_holds {t t' : Texture} {frame frame' : Frame} (hs : source.Twin source')
    (hf : frame.Fits source) (hf' : frame'.Fits source') (h : t.Holds source.format frame)
    (h' : t'.Holds source'.format frame')
    (hsame : frame.SameImage source.format source'.format frame') : t.Twin t' := by
  have hsize := hs.1
  rcases Source.formats_of_twin hs with ⟨order, order', hformat, hformat'⟩ |
    ⟨subsampling, hformat, hformat'⟩
  · obtain ⟨b, rfl, hsuits⟩ := Frame.packed_of_fits hf hformat
    obtain ⟨b', rfl, hsuits'⟩ := Frame.packed_of_fits hf' hformat'
    rw [hformat, hformat'] at hsame
    rw [hformat] at h
    rw [hformat'] at h'
    obtain ⟨texels, rfl, hfills⟩ := packed_of_holds h
    obtain ⟨texels', rfl, hfills'⟩ := packed_of_holds h'
    have hsizes : b.size = b'.size := hsuits.1.trans (hsize.trans hsuits'.1.symm)
    refine ⟨hsizes, ?_, Buffer.pick_of_fills hfills hfills' hsizes hsame⟩
    rw [hfills.size_eq, hfills'.size_eq, ← Buffer.area_mul, ← Buffer.area_mul, hsizes]
  · obtain ⟨p, rfl, hysuits, husuits, hvsuits⟩ := Frame.planar_of_fits hf hformat
    obtain ⟨p', rfl, hysuits', husuits', hvsuits'⟩ := Frame.planar_of_fits hf' hformat'
    rw [hformat, hformat'] at hsame
    rw [hformat] at h
    rw [hformat'] at h'
    rw [← hsize] at hysuits' husuits' hvsuits'
    obtain ⟨y, u, v, rfl, hy, hu, hv⟩ := planar_of_holds h
    obtain ⟨y', u', v', rfl, hy', hu', hv'⟩ := planar_of_holds h'
    exact ⟨PlaneTexture.eq_of_holds hy hy' (hysuits.1.trans hysuits'.1.symm) hsame.1,
      PlaneTexture.eq_of_holds hu hu' (husuits.1.trans husuits'.1.symm) hsame.2.1,
      PlaneTexture.eq_of_holds hv hv' (hvsuits.1.trans hvsuits'.1.symm) hsame.2.2⟩

end Texture

/-! ## The same steps of drawing -/

/-- Two steps of drawing that are the same. The formats that two layers note may differ. -/
def DrawOp.Twin {α : Type} (op op' : DrawOp α) : Prop :=
  match op, op' with
  | layer shown, layer shown' => { shown with format := shown'.format } = shown'
  | _, _ => op = op'

namespace Canvas

variable {α : Type} [Scalar α] {c : Canvas α} {textures textures' : Both Texture}

theorem draw_of_twin {op op' : DrawOp α} (ht : ∀ r, (textures.get r).Twin (textures'.get r))
    (h : op.Twin op') : c.draw textures op = c.draw textures' op' := by
  cases op with
  | fill rect color =>
    cases h
    rfl
  | outline rect color =>
    cases h
    rfl
  | layer shown =>
    cases op' with
    | fill => cases h
    | outline => cases h
    | layer shown' =>
      have hshown : { shown with format := shown'.format } = shown' := h
      rw [← hshown]
      unfold draw drawLayer
      dsimp only
      congr 1
      funext x y
      exact Texture.sample_of_twin (ht shown.role) _ _

/-- Textures with the same colors make no difference to a drawing. -/
theorem drawAll_of_twin {ops ops' : List (DrawOp α)}
    (ht : ∀ r, (textures.get r).Twin (textures'.get r)) (h : List.Forall₂ DrawOp.Twin ops ops') :
    c.drawAll textures ops = c.drawAll textures' ops' := by
  unfold drawAll
  induction h generalizing c with
  | nil => rfl
  | @cons op op' ops ops' hop _ ih =>
    rw [List.foldlM_cons, List.foldlM_cons, draw_of_twin ht hop]
    cases c.draw textures' op' with
    | error => rfl
    | ok next => exact ih

end Canvas

/-! ## Two runs -/

/-- Sizes and bytes of the pictures that go with a reply. -/
def Reply.pictures {σ β : Type} (reply : Reply σ β) : List (Size × ByteArray) :=
  (reply.effects.filterMap Effect.frame?).map fun picture => (picture.size, picture.pixels)

namespace Raster.State

/-- The states that two backends come to side by side. Each takes a frame of its own whenever the
other takes one that shows the same picture. They draw at the same times, but may draw anything. -/
inductive Twins {α : Type} (c c' : Config α) : State → State → Prop where
  | create {s s'} (h : create c = .ok s) (h' : create c' = .ok s') : Twins c c' s s'
  | upload {s s'} (h : Twins c c' s s') (role : Role) {frame frame' : Frame}
      (hdone : (s.upload role frame).outcome = .done ())
      (hdone' : (s'.upload role frame').outcome = .done ())
      (hsame : frame.SameImage (c.sources.get role).format (c'.sources.get role).format frame') :
      Twins c c' (s.upload role frame).state (s'.upload role frame').state
  | render {s s'} (h : Twins c c' s s') (ops ops' : List (DrawOp Float32)) (stamp stamp' : Stamp) :
      Twins c c' (s.render ops stamp).state (s'.render ops' stamp').state
  | disconnect {s s'} (h : Twins c c' s s') : Twins c c' s.disconnect s'.disconnect

variable {α : Type} {c c' : Config α} {s s' : State} {role : Role} {frame frame' : Frame}

/-- Two backends of the shapes of their settings that hold the same pictures. -/
structure Matched (c c' : Config α) (s s' : State) : Prop where
  shaped : s.Shaped c
  shaped' : s'.Shaped c'
  texture : ∀ r, (s.textures.get r).Twin (s'.textures.get r)
  receiving : s.receiving = s'.receiving

/-- A frame that was taken fits, and the texture of its source holds it. -/
theorem holds_of_done (hs : s.Shaped c) (hdone : (s.upload role frame).outcome = .done ()) :
    ∃ texture : Texture, frame.Fits (c.sources.get role) ∧
      texture.Holds (c.sources.get role).format frame ∧
      (s.upload role frame).state = { s with textures := s.textures.set role texture } := by
  have hdeclared : s.declared.get role = c.sources.get role := by rw [hs.declared]
  cases hv : frame.validateFor role (s.declared.get role) with
  | error fault =>
    rw [upload_of_invalid hv] at hdone
    cases hdone
  | ok =>
    obtain ⟨hstate, _, houtcome⟩ := upload_of_valid hv
    rw [hdeclared] at hv hstate houtcome
    have hfit : frame.Fits (c.sources.get role) := (Frame.validateFor_eq_ok role).mp hv
    have hok : ((s.textures.get role).upload role (c.sources.get role).format.packing frame).2 =
        .ok () := by
      rw [houtcome] at hdone
      split at hdone
      · assumption
      · cases hdone
      · cases hdone
    exact ⟨_, hfit, Texture.holds_of_upload (hs.texture role) hfit hok, hstate⟩

theorem matched_create (hc : c.Twin c') (h : create c = .ok s) (h' : create c' = .ok s') :
    Matched c c' s s' := by
  obtain ⟨_, rfl⟩ := create_eq_ok.mp h
  obtain ⟨_, rfl⟩ := create_eq_ok.mp h'
  refine ⟨shaped_create h, shaped_create h', ?_, rfl⟩
  intro r
  unfold blank
  rw [Both.get_map, Both.get_map]
  exact Texture.twin_blank (hc.source r)

theorem matched_upload (hc : c.Twin c') (h : Matched c c' s s')
    (hdone : (s.upload role frame).outcome = .done ())
    (hdone' : (s'.upload role frame').outcome = .done ())
    (hsame : frame.SameImage (c.sources.get role).format (c'.sources.get role).format frame') :
    Matched c c' (s.upload role frame).state (s'.upload role frame').state := by
  obtain ⟨texture, hfit, hholds, hstate⟩ := holds_of_done h.shaped hdone
  obtain ⟨texture', hfit', hholds', hstate'⟩ := holds_of_done h.shaped' hdone'
  refine ⟨shaped_upload h.shaped role frame, shaped_upload h.shaped' role frame', ?_, ?_⟩
  · intro r
    rw [hstate, hstate']
    change ((s.textures.set role texture).get r).Twin ((s'.textures.set role texture').get r)
    rw [Both.get_set, Both.get_set]
    split
    · exact Texture.twin_of_holds (hc.source role) hfit hfit' hholds hholds' hsame
    · exact h.texture r
  · rw [hstate, hstate']
    exact h.receiving

/-- A drawing changes the canvas at most. -/
theorem render_keeps (s : State) (ops : List (DrawOp Float32)) (stamp : Stamp) :
    (s.render ops stamp).state.textures = s.textures ∧
      (s.render ops stamp).state.receiving = s.receiving := by
  cases hdraw : s.canvas.clear.drawAll s.textures ops with
  | error crash =>
    rw [render_of_crash hdraw]
    exact ⟨rfl, rfl⟩
  | ok canvas =>
    rw [(render_of_canvas hdraw stamp).1]
    exact ⟨rfl, rfl⟩

theorem matched_render (h : Matched c c' s s') (ops ops' : List (DrawOp Float32))
    (stamp stamp' : Stamp) :
    Matched c c' (s.render ops stamp).state (s'.render ops' stamp').state := by
  obtain ⟨htextures, hreceiving⟩ := render_keeps s ops stamp
  obtain ⟨htextures', hreceiving'⟩ := render_keeps s' ops' stamp'
  refine ⟨shaped_render h.shaped ops stamp, shaped_render h.shaped' ops' stamp', ?_, ?_⟩
  · rw [htextures, htextures']
    exact h.texture
  · rw [hreceiving, hreceiving']
    exact h.receiving

theorem matched_of_twins (hc : c.Twin c') (h : Twins c c' s s') : Matched c c' s s' := by
  induction h with
  | create h h' => exact matched_create hc h h'
  | upload _ role hdone hdone' hsame ih => exact matched_upload hc ih hdone hdone' hsame
  | render _ ops ops' stamp stamp' ih => exact matched_render ih ops ops' stamp stamp'
  | disconnect _ ih =>
    exact ⟨shaped_disconnect ih.shaped, shaped_disconnect ih.shaped', ih.texture, rfl⟩

/-- Two backends of one output that have taken the same pictures in the same order draw the same
picture, byte for byte, wherever the samples were in the memory of the frames, in whatever order
their colors, and whatever was drawn before. -/
theorem nothing_but_the_image_is_seen (hc : c.Twin c') (h : Twins c c' s s')
    {ops ops' : List (DrawOp Float32)} (hops : List.Forall₂ DrawOp.Twin ops ops')
    (stamp stamp' : Stamp) :
    let reply := s.render ops stamp
    let reply' := s'.render ops' stamp'
    reply.outcome = reply'.outcome ∧ reply.pictures = reply'.pictures ∧
      (reply.outcome = .done .presented → ∃ picture, reply.pictures = [picture]) := by
  intro reply reply'
  have hmatched := matched_of_twins hc h
  have hdraws : s.canvas.clear.drawAll s.textures ops =
      s'.canvas.clear.drawAll s'.textures ops' := by
    rw [clear_of_shaped hmatched.shaped hmatched.shaped' hc.output]
    exact Canvas.drawAll_of_twin hmatched.texture hops
  cases hdraw : s.canvas.clear.drawAll s.textures ops with
  | error crash =>
    have hreply : reply = _ := render_of_crash hdraw stamp
    have hreply' : reply' = _ := render_of_crash (hdraws ▸ hdraw) stamp'
    rw [hreply, hreply']
    exact ⟨rfl, rfl, nofun⟩
  | ok canvas =>
    obtain ⟨_, houtcome, heffects⟩ := render_of_canvas hdraw stamp
    obtain ⟨_, houtcome', heffects'⟩ := render_of_canvas (hdraws ▸ hdraw) stamp'
    rw [← hmatched.receiving] at houtcome' heffects'
    unfold Reply.pictures
    rw [houtcome, houtcome', heffects, heffects']
    cases s.receiving with
    | false => exact ⟨rfl, rfl, nofun⟩
    | true => exact ⟨rfl, rfl, fun _ => ⟨_, rfl⟩⟩

/-- Red before blue without gaps, and blue before red with gaps, another fourth byte and bytes
behind the last pixel. The first backend has drawn before. Both present the same two pixels. -/
theorem gaps_and_orders_stay_unseen :
    let c : Config Float32 := .withSizes ⟨2, 1⟩ ⟨1, 1⟩ ⟨2, 1⟩
    let c' : Config Float32 :=
      { c with sources := c.sources.set .primary ⟨⟨2, 1⟩, .packed .bgra⟩ }
    let frame : Frame := .packed ⟨2, 1, 8, 4, ⟨#[200, 100, 0, 7, 10, 20, 30, 255]⟩⟩
    let frame' : Frame := .packed ⟨2, 1, 12, 6, ⟨#[0, 100, 200, 99, 1, 2, 30, 20, 10, 0, 3]⟩⟩
    let drawn := ((blank c).render [.fill .full ⟨1, 1, 1, 1⟩] ⟨4, 9⟩).state
    let left := (drawn.upload .primary frame).state
    let right := (((blank c').render [] ⟨0, 0⟩).state.upload .primary frame').state
    let shown (order : ChannelOrder) : List (DrawOp Float32) :=
      [.layer ⟨.primary, .packed order, .of .full .full .deg0, 1⟩]
    c.Twin c' ∧ Twins c c' left right ∧
      frame.SameImage (.packed .rgba) (.packed .bgra) frame' ∧
      (left.render (shown .rgba) ⟨0, 0⟩).pictures = (right.render (shown .bgra) ⟨1, 5⟩).pictures ∧
      (right.render (shown .bgra) ⟨1, 5⟩).pictures =
        [(⟨2, 1⟩, ⟨#[200, 100, 0, 255, 10, 20, 30, 255]⟩)] := by
  intro c c' frame frame' drawn left right shown
  have hc : c.Twin c' := by
    refine ⟨rfl, ?_⟩
    intro r
    cases r with
    | primary => exact ⟨rfl, trivial⟩
    | secondary => exact ⟨rfl, rfl⟩
  have hsame : frame.SameImage (.packed .rgba) (.packed .bgra) frame' := by
    intro x y hx hy
    change x < 2 at hx
    change y < 1 at hy
    obtain rfl := Nat.lt_one_iff.mp hy
    obtain rfl | rfl : x = 0 ∨ x = 1 := by omega
    · rfl
    · rfl
  have hnew : Twins c c' (blank c) (blank c') :=
    .create (create_eq_ok.mpr ⟨by decide +kernel, rfl⟩) (create_eq_ok.mpr ⟨by decide +kernel, rfl⟩)
  have htwins : Twins c c' left right :=
    (hnew.render [.fill .full ⟨1, 1, 1, 1⟩] [] ⟨4, 9⟩ ⟨0, 0⟩).upload .primary
      (by decide +kernel) (by decide +kernel) hsame
  have hops : List.Forall₂ DrawOp.Twin (shown .rgba) (shown .bgra) := .cons rfl .nil
  have hpictures : (right.render (shown .bgra) ⟨1, 5⟩).pictures =
      [(⟨2, 1⟩, ⟨#[200, 100, 0, 255, 10, 20, 30, 255]⟩)] := by
    decide +kernel
  obtain ⟨_, hseen, _⟩ := nothing_but_the_image_is_seen hc htwins hops ⟨0, 0⟩ ⟨1, 5⟩
  exact ⟨hc, htwins, hsame, hseen, hpictures⟩

end Raster.State

end PictureInPicture
