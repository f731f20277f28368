-- Calls that cannot crash. With sources that have pixels and an output whose columns and rows are
-- numbers of single precision, every frame is taken or refused and every list of steps is drawn,
-- whatever numbers the steps hold, NaN and the infinities among them.
import PictureInPicture.Proofs.Raster.Reference
import PictureInPicture.Proofs.Scalar.Arithmetic

namespace PictureInPicture

/-! ## Spans -/

namespace Span

/-- A span of an output: its edges lie on the axes, and it has a last column and a last row unless
it is empty. -/
structure LiesIn (s : Span) (output : Size) : Prop where
  left : s.left ≤ output.width.toNat
  right : s.right ≤ output.width.toNat
  top : s.top ≤ output.height.toNat
  bottom : s.bottom ≤ output.height.toNat
  column : s.isEmpty = false → s.left ≤ s.right - 1 ∧ s.right - 1 < output.width.toNat
  row : s.isEmpty = false → s.top ≤ s.bottom - 1 ∧ s.bottom - 1 < output.height.toNat

/-- If the edges lie on the axes, the spans lie in the output. -/
theorem liesIn_of_edge_le {output : Size}
    (hw : ∀ position : Float32, edge position output.width ≤ output.width.toNat)
    (hh : ∀ position : Float32, edge position output.height ≤ output.height.toNat)
    (r : Rect Float32) : (of r output).LiesIn output := by
  have hright : (of r output).right ≤ output.width.toNat := hw _
  have hbottom : (of r output).bottom ≤ output.height.toNat := hh _
  refine ⟨hw _, hright, hh _, hbottom, ?_, ?_⟩
  · intro hspan
    obtain ⟨hcolumns, _⟩ := isEmpty_eq_false.mp hspan
    omega
  · intro hspan
    obtain ⟨_, hrows⟩ := isEmpty_eq_false.mp hspan
    omega

theorem liesIn_of_isDrawable {output : Size} (h : output.IsDrawable) (r : Rect Float32) :
    (of r output).LiesIn output :=
  liesIn_of_edge_le (fun _ => edge_le _ h.width_pos h.width_le)
    (fun _ => edge_le _ h.height_pos h.height_le) r

/-- An axis does not end before it begins, so an edge can be held inside it. -/
theorem limit_nonneg {n : Nat} (hn : 0 < n) (hn' : n ≤ 2 ^ 24) :
    (Scalar.ofNat 0 : Float32) ≤ Scalar.ofNat n := by
  obtain ⟨m, e, hm, hcount, _⟩ := Single.unpack_count hn hn'
  rw [Single.le_iff_unpack, hcount]
  rfl

end Span

/-! ## Memories -/

theorem reserve_eq_ok {sizes : List Nat} :
    reserve sizes = .ok () ↔ ∀ n ∈ sizes, n ≤ addressLimit := by
  unfold reserve
  split
  · rename_i bytes hfind
    have hlarge := List.find?_some hfind
    have hmem := List.mem_of_find?_eq_some hfind
    rw [decide_eq_true_eq] at hlarge
    constructor
    · nofun
    · intro hall
      exact absurd (hall bytes hmem) (Nat.not_le.mpr hlarge)
  · rename_i hfind
    rw [List.find?_eq_none] at hfind
    constructor
    · intro _ n hn
      exact Nat.not_lt.mp fun hlt => hfind n hn (decide_eq_true hlt)
    · intro _
      rfl

namespace Raster.State

variable {α : Type} {c : Config α} {s : State}

/-- A start has its memories if and only if each of them can be addressed. -/
theorem create_iff : create c = .ok (blank c) ↔ ∀ n ∈ memories c, n ≤ addressLimit := by
  rw [create_eq_ok, reserve_eq_ok]
  exact and_iff_left rfl

/-! ## Calls -/

/-- A frame whose data can be had is taken or refused. -/
theorem upload_ends (hs : s.Shaped c) (role : Role) {frame : Frame} (ha : frame.Addressable) :
    (s.upload role frame).outcome = .done () ∨
      ∃ fault, (s.upload role frame).outcome = .failed (.invalidBuffer fault) := by
  cases hv : frame.validateFor role (s.declared.get role) with
  | error fault =>
    rw [upload_of_invalid hv]
    exact .inr ⟨fault, rfl⟩
  | ok =>
    have hfits := (Frame.validateFor_eq_ok role).mp hv
    have htexture := hs.texture role
    rw [← hs.declared] at htexture
    rw [upload_of_taken hv (Texture.upload_of_fits role htexture hfits ha)]
    exact .inl rfl

theorem not_starves (hsources : ∀ r, (c.sources.get r).size.isEmpty = false)
    (op : DrawOp Float32) : ¬ op.Starves c.sources c.output := by
  cases op with
  | fill => exact id
  | outline => exact id
  | layer shown =>
    rintro ⟨hempty, _⟩
    rw [hsources shown.role] at hempty
    cases hempty

/-- Every list of steps is drawn to its end. -/
theorem drawn (hs : s.Shaped c) (hsources : ∀ r, (c.sources.get r).size.isEmpty = false)
    (ho : c.output.IsDrawable) (ops : List (DrawOp Float32)) :
    ∃ canvas, s.canvas.clear.drawAll s.textures ops = .ok canvas := by
  cases hdraw : s.canvas.clear.drawAll s.textures ops with
  | error crash =>
    obtain ⟨op, _, hstarves⟩ := starves_of_drawAll hs ho hdraw
    exact absurd hstarves (not_starves hsources op)
  | ok canvas => exact ⟨canvas, rfl⟩

/-- Only a receiver that is gone makes a drawing fail. -/
theorem render_ends (hs : s.Shaped c) (hsources : ∀ r, (c.sources.get r).size.isEmpty = false)
    (ho : c.output.IsDrawable) (ops : List (DrawOp Float32)) (stamp : Stamp) :
    (s.render ops stamp).outcome =
      if s.receiving then .done .presented else .failed disconnected := by
  obtain ⟨canvas, hdraw⟩ := drawn hs hsources ho ops
  exact (render_of_canvas hdraw stamp).2.1

/-- Settings whose sources have pixels, and whose output has no more than 2 ^ 24 columns and rows,
make a backend of which no call crashes. It starts if its memories can be addressed. After any
uploads and drawings each point of a texture has a sample and each pixel of the output a place on
the canvas. Every frame is taken or refused as invalid. Every list of steps is drawn, whatever
rectangles, windows, colors and opacities it holds, and the answer is a fault if and only if nobody
takes pictures any more. -/
theorem calls_never_crash (hsources : ∀ r, (c.sources.get r).size.isEmpty = false)
    (ho : c.output.IsDrawable) :
    (create c = .ok (blank c) ↔ ∀ n ∈ memories c, n ≤ addressLimit) ∧
      ((Scalar.ofNat 0 : Float32) ≤ Scalar.ofNat c.output.width.toNat ∧
        (Scalar.ofNat 0 : Float32) ≤ Scalar.ofNat c.output.height.toNat) ∧
      (∀ rect : Rect Float32, (Span.of rect c.output).LiesIn c.output) ∧
      ∀ s, Reached c s →
        (∀ role (p : TexPoint Float32) opacity,
          ∃ color, (s.textures.get role).sample p opacity = .ok color) ∧
        (∀ x y, x < c.output.width.toNat → y < c.output.height.toNat →
          s.canvas.offset x y < s.canvas.pixels.size) ∧
        (∀ role frame, frame.Addressable → (s.upload role frame).outcome = .done () ∨
          ∃ fault, (s.upload role frame).outcome = .failed (.invalidBuffer fault)) ∧
        ∀ ops stamp, (s.render ops stamp).outcome =
          if s.receiving then .done .presented else .failed disconnected := by
  refine ⟨create_iff, ⟨Span.limit_nonneg ho.width_pos ho.width_le,
    Span.limit_nonneg ho.height_pos ho.height_le⟩, Span.liesIn_of_isDrawable ho, ?_⟩
  intro s hs
  have hshaped := shaped_of_reached hs
  refine ⟨?_, ?_, ?_, ?_⟩
  · intro role p opacity
    exact Texture.sample_of_pixels (hshaped.texture role) (hsources role) p opacity
  · intro x y hx hy
    have hsize : s.canvas.size = c.output := hshaped.canvas.1
    rw [← hsize] at hx hy
    exact Canvas.offset_lt (isWhole_of_shaped hshaped) hx hy
  · intro role frame ha
    exact upload_ends hshaped role ha
  · intro ops stamp
    exact render_ends hshaped hsources ho ops stamp

/-- A layer without an upper edge, of a window that has no numbers, is drawn under a line around a
rectangle that is none. A frame that claims rows it does not have is refused. -/
theorem a_window_without_numbers_is_drawn :
    let c : Config Float32 := .withSizes ⟨1, 1⟩ ⟨3, 3⟩ ⟨2, 1⟩
    let nan : Float32 := 0 / 0
    let ops : List (DrawOp Float32) :=
      [.layer ⟨.secondary, .planar .yuv420,
        .of ⟨-1, -1, 2, 1 / 0⟩ ⟨nan, 1 / 0, nan, -1 / 0⟩ .deg90, nan⟩,
        .outline ⟨nan, 0, -1, nan⟩ ⟨nan, 2, -1, 1 / 0⟩]
    let torn : Frame := .packed ⟨1, 4294967295, 18446744073709551615, 4, ⟨#[0]⟩⟩
    (∀ r, (c.sources.get r).size.isEmpty = false) ∧ c.output.IsDrawable ∧
      Reached c (blank c) ∧ torn.Addressable ∧
      ((blank c).render ops ⟨0, 0⟩).outcome = .done .presented ∧
      ((blank c).disconnect.render ops ⟨0, 0⟩).outcome = .failed disconnected ∧
      ((blank c).upload .primary torn).outcome ≠ .done () := by
  intro c nan ops torn
  have hsources : ∀ r, (c.sources.get r).size.isEmpty = false := by
    intro r
    cases r <;> decide
  have ho : c.output.IsDrawable := ⟨by decide, by decide, by decide, by decide⟩
  have htorn : torn.Addressable := by
    change (1 : Nat) ≤ addressLimit
    decide
  obtain ⟨hcreate, _, _, hcalls⟩ := calls_never_crash hsources ho
  have hnew : Reached c (blank c) := .create (hcreate.mpr (by decide))
  obtain ⟨_, _, _, hrender⟩ := hcalls (blank c) hnew
  obtain ⟨_, _, _, hrender'⟩ := hcalls (blank c).disconnect hnew.disconnect
  exact ⟨hsources, ho, hnew, htorn, hrender ops ⟨0, 0⟩, hrender' ops ⟨0, 0⟩,
    by decide +kernel⟩

end Raster.State

end PictureInPicture
