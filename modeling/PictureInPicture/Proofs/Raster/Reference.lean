-- The picture that is drawn, pixel by pixel. The reference goes over the steps for one pixel alone
-- and blends in the color of each step that covers it. The loops of the canvas come to the same
-- picture, whatever the steps are.
import PictureInPicture.Proofs.Raster.Cells
import PictureInPicture.Proofs.Raster.Sampling
import PictureInPicture.Proofs.Scalar.Counts

namespace PictureInPicture

/-- Places in rows of one length tell the pixels apart. -/
theorem column_and_row_of_place {x x' y y' w : Nat} (hx : x < w) (hx' : x' < w)
    (h : y * w + x = y' * w + x') : x = x' ∧ y = y' := by
  have hcolumn : ∀ {x y : Nat}, x < w → (y * w + x) % w = x := by
    intro x y hx
    rw [Nat.add_comm, Nat.add_mul_mod_self_right]
    exact Nat.mod_eq_of_lt hx
  have hsame : x = x' := by rw [← hcolumn hx, h, hcolumn hx']
  subst hsame
  exact ⟨rfl, Nat.eq_of_mul_eq_mul_right (by omega) (Nat.add_right_cancel h)⟩

namespace Canvas

variable {α : Type} {c c' : Canvas α} {x y : Nat}

/-- There is a color for every pixel of the output. -/
def IsWhole (c : Canvas α) : Prop := c.pixels.size = c.size.area

theorem Alike.isWhole (h : c'.Alike c) (hc : c.IsWhole) : c'.IsWhole := by
  unfold IsWhole
  rw [h.1, h.2]
  exact hc

theorem offset_lt (hc : c.IsWhole) (hx : x < c.size.width.toNat) (hy : y < c.size.height.toNat) :
    c.offset x y < c.pixels.size := by
  rw [hc, Size.area, Nat.mul_comm]
  exact place_lt hx hy

theorem pixel?_of_isWhole (hc : c.IsWhole) (hx : x < c.size.width.toNat)
    (hy : y < c.size.height.toNat) : ∃ color, c.pixel? x y = some color :=
  ⟨_, Array.getElem?_eq_getElem (offset_lt hc hx hy)⟩

/-! ## One pixel after the other -/

variable [Scalar α] {shade : Nat → Nat → Except Crash (Color α)} {cells : List (Nat × Nat)}

/-- The canvas is black before the first step. -/
theorem pixel?_clear (hc : c.IsWhole) (hx : x < c.size.width.toNat)
    (hy : y < c.size.height.toNat) : c.clear.pixel? x y = some .black := by
  obtain ⟨color, hcolor⟩ := pixel?_of_isWhole hc hx hy
  unfold pixel? at hcolor
  unfold pixel? clear
  dsimp only
  rw [Array.getElem?_map]
  change (c.pixels[c.offset x y]?).map _ = _
  rw [hcolor]
  rfl

/-- A color is blended into a pixel of the output and into no other. -/
theorem blend_of_inside (hc : c.IsWhole) (hx : x < c.size.width.toNat)
    (hy : y < c.size.height.toNat) (src : Color α) :
    ∃ dst c', c.pixel? x y = some dst ∧ c.blend x y src = .ok c' ∧
      c'.pixel? x y = some (src.atop dst) ∧
      ∀ x' y', x' < c.size.width.toNat → (x', y') ≠ (x, y) → c'.pixel? x' y' = c.pixel? x' y' := by
  have hlt := offset_lt hc hx hy
  refine ⟨_, _, getElem?_pos c.pixels _ hlt, dif_pos hlt, ?_, ?_⟩
  · exact Array.getElem?_set_self hlt
  · intro x' y' hx' hne
    apply Array.getElem?_set_ne hlt
    intro heq
    obtain ⟨rfl, rfl⟩ := column_and_row_of_place hx hx' heq
    exact hne rfl

/-- What is left of a canvas when pixels were blended with colors of their own: each of them once,
and the others are as they were. -/
structure Blended (shade : Nat → Nat → Except Crash (Color α)) (cells : List (Nat × Nat))
    (c c' : Canvas α) : Prop where
  alike : c'.Alike c
  color : ∀ x y, (x, y) ∈ cells → ∃ color dst, shade x y = .ok color ∧
    c.pixel? x y = some dst ∧ c'.pixel? x y = some (color.atop dst)
  spared : ∀ x y, x < c.size.width.toNat → (x, y) ∉ cells → c'.pixel? x y = c.pixel? x y

/-- The pixels lie in the output. -/
def Inside (cells : List (Nat × Nat)) (output : Size) : Prop :=
  ∀ x y, (x, y) ∈ cells → x < output.width.toNat ∧ y < output.height.toNat

theorem dab_ok {cell : Nat × Nat} (h : dab shade c cell = .ok c') :
    ∃ color, shade cell.1 cell.2 = .ok color ∧ c.blend cell.1 cell.2 color = .ok c' := by
  unfold dab at h
  split at h
  · cases h
  · exact ⟨_, ‹_›, h⟩

theorem blended_cons {next : Canvas α} (hc : c.IsWhole) (hnot : (x, y) ∉ cells)
    (hx : x < c.size.width.toNat) (hy : y < c.size.height.toNat)
    (hcells : Inside cells c.size) (hfirst : dab shade c (x, y) = .ok next)
    (h : Blended shade cells next c') : Blended shade ((x, y) :: cells) c c' := by
  obtain ⟨color, hcolor, hblend⟩ := dab_ok hfirst
  have halike := alike_blend hblend
  obtain ⟨dst, c₁, hdst, hblend', hsrc, hothers⟩ := blend_of_inside hc hx hy color
  rw [hblend] at hblend'
  cases hblend'
  refine ⟨h.alike.trans halike, ?_, ?_⟩
  · intro x' y' hmem
    rcases List.mem_cons.mp hmem with heq | hmem
    · cases heq
      refine ⟨color, dst, hcolor, hdst, ?_⟩
      rw [h.spared x y (by rwa [halike.1]) hnot]
      exact hsrc
    · obtain ⟨color', dst', hcolor', hdst', hafter⟩ := h.color x' y' hmem
      have hne : (x', y') ≠ (x, y) := fun heq => hnot (heq ▸ hmem)
      rw [hothers x' y' (hcells x' y' hmem).1 hne] at hdst'
      exact ⟨color', dst', hcolor', hdst', hafter⟩
  · intro x' y' hx' hmem
    rw [List.mem_cons, not_or] at hmem
    rw [h.spared x' y' (by rwa [halike.1]) hmem.2]
    exact hothers x' y' hx' hmem.1

/-- A loop over pixels blends each of them once. -/
theorem blended_of_dabs (hc : c.IsWhole) (hnodup : cells.Nodup) (hcells : Inside cells c.size)
    (h : cells.foldlM (dab shade) c = .ok c') : Blended shade cells c c' := by
  induction cells generalizing c with
  | nil =>
    cases h
    exact ⟨alike_refl _, nofun, fun _ _ _ _ => rfl⟩
  | cons cell cells ih =>
    obtain ⟨x, y⟩ := cell
    rw [List.foldlM_cons] at h
    cases hfirst : dab shade c (x, y) with
    | error =>
      rw [hfirst] at h
      cases h
    | ok next =>
      rw [hfirst] at h
      obtain ⟨hnot, hnodup⟩ := List.nodup_cons.mp hnodup
      obtain ⟨hx, hy⟩ := hcells x y (List.mem_cons_self ..)
      obtain ⟨color, _, hblend⟩ := dab_ok hfirst
      have halike := alike_blend hblend
      have hrest : Inside cells c.size := fun x y hmem => hcells x y (List.mem_cons_of_mem _ hmem)
      apply blended_cons hc hnot hx hy hrest hfirst
      apply ih (halike.isWhole hc) hnodup _ h
      rw [halike.1]
      exact hrest

/-- A loop over pixels crashes only where a color is asked for that there is not. -/
theorem crash_of_dabs {crash : Crash} (hc : c.IsWhole) (hcells : Inside cells c.size)
    (h : cells.foldlM (dab shade) c = .error crash) :
    ∃ x y, (x, y) ∈ cells ∧ shade x y = .error crash := by
  induction cells generalizing c with
  | nil => cases h
  | cons cell cells ih =>
    obtain ⟨x, y⟩ := cell
    rw [List.foldlM_cons] at h
    cases hcolor : shade x y with
    | error crash' =>
      have hfirst : dab shade c (x, y) = .error crash' := by
        unfold dab
        rw [hcolor]
      rw [hfirst] at h
      cases h
      exact ⟨x, y, List.mem_cons_self .., hcolor⟩
    | ok color =>
      obtain ⟨hx, hy⟩ := hcells x y (List.mem_cons_self ..)
      obtain ⟨_, next, _, hblend, _⟩ := blend_of_inside hc hx hy color
      have hfirst : dab shade c (x, y) = .ok next := by
        unfold dab
        rw [hcolor]
        exact hblend
      rw [hfirst] at h
      have halike := alike_blend hblend
      obtain ⟨x', y', hmem, herror⟩ := ih (halike.isWhole hc) (by
        rw [halike.1]
        exact fun x y hmem => hcells x y (List.mem_cons_of_mem _ hmem)) h
      exact ⟨x', y', List.mem_cons_of_mem _ hmem, herror⟩

/-- A loop over pixels that all have a color comes to an end. -/
theorem blended_of_colors (hc : c.IsWhole) (hnodup : cells.Nodup) (hcells : Inside cells c.size)
    (hcolors : ∀ x y, (x, y) ∈ cells → ∃ color, shade x y = .ok color) :
    ∃ c', cells.foldlM (dab shade) c = .ok c' ∧ Blended shade cells c c' := by
  cases h : cells.foldlM (dab shade) c with
  | error crash =>
    obtain ⟨x, y, hmem, hcrash⟩ := crash_of_dabs hc hcells h
    obtain ⟨color, hcolor⟩ := hcolors x y hmem
    rw [hcrash] at hcolor
    cases hcolor
  | ok c' => exact ⟨c', rfl, blended_of_dabs hc hnodup hcells h⟩

/-- One color for all pixels: it lies over the pixels of the list, and the others are as they
were. -/
theorem Blended.pixel_of_color {src : Color α} {p : Prop} [Decidable p]
    (h : Blended (fun _ _ => .ok src) cells c c') (hc : c.IsWhole) (hx : x < c.size.width.toNat)
    (hy : y < c.size.height.toNat) (hp : (x, y) ∈ cells ↔ p) :
    ∃ dst, c.pixel? x y = some dst ∧ c'.pixel? x y = some (if p then src.atop dst else dst) := by
  by_cases hcell : p
  · obtain ⟨_, dst, hcolor, hdst, hafter⟩ := h.color x y (hp.mpr hcell)
    cases hcolor
    refine ⟨dst, hdst, ?_⟩
    rw [if_pos hcell]
    exact hafter
  · obtain ⟨dst, hdst⟩ := pixel?_of_isWhole hc hx hy
    refine ⟨dst, hdst, ?_⟩
    rw [if_neg hcell]
    exact (h.spared x y hx (mt hp.mp hcell)).trans hdst

end Canvas

/-! ## The reference -/

section

variable {α : Type} [Scalar α] {textures : Both Texture} {op : DrawOp α} {ops : List (DrawOp α)}
  {c c' : Canvas α} {x y : Nat}

/-- What a step leaves of the color of one pixel: it is blended with the color that the step has
there, if the step covers the pixel. -/
def DrawOp.over (op : DrawOp α) (textures : Both Texture) (output : Size) (x y : Nat)
    (dst : Color α) : Except Crash (Color α) :=
  if op.Covers output x y then (op.colorAt textures output x y).map (·.atop dst) else .ok dst

/-- The color of one pixel after some steps, in order, over opaque black. -/
def reference (textures : Both Texture) (output : Size) (ops : List (DrawOp α)) (x y : Nat) :
    Except Crash (Color α) :=
  ops.foldlM (fun dst op => op.over textures output x y dst) .black

/-- A step covers pixels of the output only. -/
def DrawOp.Inside (op : DrawOp α) (output : Size) : Prop :=
  ∀ x y, op.Covers output x y → x < output.width.toNat ∧ y < output.height.toNat

theorem DrawOp.inside_cells {output : Size} (h : op.Inside output) :
    Canvas.Inside (op.cells output) output := fun x y hmem => h x y (mem_cells.mp hmem)

namespace Canvas

theorem blended_of_draw (hc : c.IsWhole) (hop : op.Inside c.size)
    (h : c.draw textures op = .ok c') :
    Blended (op.colorAt textures c.size) (op.cells c.size) c c' := by
  rw [draw_eq] at h
  exact blended_of_dabs hc (op.nodup_cells c.size) (DrawOp.inside_cells hop) h

theorem crash_of_draw {crash : Crash} (hc : c.IsWhole) (hop : op.Inside c.size)
    (h : c.draw textures op = .error crash) :
    ∃ x y, op.Covers c.size x y ∧ op.colorAt textures c.size x y = .error crash := by
  rw [draw_eq] at h
  obtain ⟨x, y, hmem, hcolor⟩ := crash_of_dabs hc (DrawOp.inside_cells hop) h
  exact ⟨x, y, DrawOp.mem_cells.mp hmem, hcolor⟩

/-- A step leaves of every pixel what the reference says. -/
theorem pixel_of_blended (hc : c.IsWhole) (hx : x < c.size.width.toNat)
    (hy : y < c.size.height.toNat)
    (h : Blended (op.colorAt textures c.size) (op.cells c.size) c c') :
    ∃ dst color, c.pixel? x y = some dst ∧ op.over textures c.size x y dst = .ok color ∧
      c'.pixel? x y = some color := by
  unfold DrawOp.over
  by_cases hcovers : op.Covers c.size x y
  · obtain ⟨color, dst, hcolor, hdst, hafter⟩ := h.color x y (DrawOp.mem_cells.mpr hcovers)
    refine ⟨dst, _, hdst, ?_, hafter⟩
    rw [if_pos hcovers, hcolor]
    rfl
  · have hsame := h.spared x y hx fun hmem => hcovers (DrawOp.mem_cells.mp hmem)
    obtain ⟨dst, hdst⟩ := pixel?_of_isWhole hc hx hy
    exact ⟨dst, dst, hdst, if_neg hcovers, hsame.trans hdst⟩

theorem drawAll_cons_ok (h : c.drawAll textures (op :: ops) = .ok c') :
    ∃ next, c.draw textures op = .ok next ∧ next.drawAll textures ops = .ok c' := by
  unfold drawAll at h
  rw [List.foldlM_cons] at h
  cases hdraw : c.draw textures op with
  | error =>
    rw [hdraw] at h
    cases h
  | ok next =>
    rw [hdraw] at h
    exact ⟨next, rfl, h⟩

theorem drawAll_concat (c : Canvas α) (textures : Both Texture) (ops : List (DrawOp α))
    (op : DrawOp α) :
    c.drawAll textures (ops ++ [op]) =
      c.drawAll textures ops >>= fun next => next.draw textures op := by
  unfold drawAll
  rw [List.foldlM_append]
  apply bind_congr
  intro next
  rw [List.foldlM_cons]
  exact bind_pure _

theorem drawAll_concat_ok (h : c.drawAll textures (ops ++ [op]) = .ok c') :
    ∃ next, c.drawAll textures ops = .ok next ∧ next.draw textures op = .ok c' := by
  rw [drawAll_concat] at h
  cases hdraw : c.drawAll textures ops with
  | error =>
    rw [hdraw] at h
    cases h
  | ok next =>
    rw [hdraw] at h
    exact ⟨next, rfl, h⟩

theorem drawAll_cons_error {crash : Crash} (h : c.draw textures op = .error crash)
    (ops : List (DrawOp α)) : c.drawAll textures (op :: ops) = .error crash := by
  unfold drawAll
  rw [List.foldlM_cons, h]
  rfl

/-- All steps together leave of every pixel what the reference says. -/
theorem pixel_of_drawAll (hc : c.IsWhole) (hops : ∀ op ∈ ops, op.Inside c.size)
    (hx : x < c.size.width.toNat) (hy : y < c.size.height.toNat)
    (h : c.drawAll textures ops = .ok c') :
    ∃ dst color, c.pixel? x y = some dst ∧
      ops.foldlM (fun dst op => op.over textures c.size x y dst) dst = .ok color ∧
      c'.pixel? x y = some color := by
  induction ops generalizing c with
  | nil =>
    cases h
    obtain ⟨dst, hdst⟩ := pixel?_of_isWhole hc hx hy
    exact ⟨dst, dst, hdst, rfl, hdst⟩
  | cons op ops ih =>
    obtain ⟨next, hdraw, hrest⟩ := drawAll_cons_ok h
    obtain ⟨hop, hops⟩ := List.forall_mem_cons.mp hops
    have hblended := blended_of_draw hc hop hdraw
    have hsize := hblended.alike.1
    obtain ⟨dst, middle, hdst, hover, hmiddle⟩ := pixel_of_blended hc hx hy hblended
    rw [← hsize] at hx hy hops
    obtain ⟨middle', color, hmiddle', hfold, hcolor⟩ :=
      ih (hblended.alike.isWhole hc) hops hx hy hrest
    rw [hmiddle] at hmiddle'
    cases hmiddle'
    rw [hsize] at hfold
    refine ⟨dst, color, hdst, ?_, hcolor⟩
    rw [List.foldlM_cons, hover]
    exact hfold

/-- A drawing that crashes has asked for a color that there is not. -/
theorem crash_of_drawAll {crash : Crash} (hc : c.IsWhole) (hops : ∀ op ∈ ops, op.Inside c.size)
    (h : c.drawAll textures ops = .error crash) :
    ∃ op ∈ ops, ∃ x y, op.Covers c.size x y ∧ op.colorAt textures c.size x y = .error crash := by
  induction ops generalizing c with
  | nil => cases h
  | cons op ops ih =>
    obtain ⟨hop, hops⟩ := List.forall_mem_cons.mp hops
    unfold drawAll at h
    rw [List.foldlM_cons] at h
    cases hdraw : c.draw textures op with
    | error crash' =>
      rw [hdraw] at h
      cases h
      exact ⟨op, List.mem_cons_self .., crash_of_draw hc hop hdraw⟩
    | ok next =>
      rw [hdraw] at h
      have halike := alike_draw hdraw
      rw [← halike.1] at hops
      obtain ⟨op', hmem, hcrash⟩ := ih (halike.isWhole hc) hops h
      rw [halike.1] at hcrash
      exact ⟨op', List.mem_cons_of_mem _ hmem, hcrash⟩

/-- A drawing that does not crash has had all colors that it asked for. -/
theorem colors_of_drawAll (hc : c.IsWhole) (hops : ∀ op ∈ ops, op.Inside c.size)
    (h : c.drawAll textures ops = .ok c') :
    ∀ op ∈ ops, ∀ x y, op.Covers c.size x y →
      ∃ color, op.colorAt textures c.size x y = .ok color := by
  induction ops generalizing c with
  | nil => nofun
  | cons op ops ih =>
    obtain ⟨next, hdraw, hrest⟩ := drawAll_cons_ok h
    obtain ⟨hop, hops⟩ := List.forall_mem_cons.mp hops
    have hblended := blended_of_draw hc hop hdraw
    have hsize := hblended.alike.1
    rw [← hsize] at hops
    have hcolors := ih (hblended.alike.isWhole hc) hops hrest
    rw [hsize] at hcolors
    refine List.forall_mem_cons.mpr ⟨?_, hcolors⟩
    intro x y hcovers
    obtain ⟨color, _, hcolor, _⟩ := hblended.color x y (DrawOp.mem_cells.mpr hcovers)
    exact ⟨color, hcolor⟩

end Canvas

end

/-! ## The bytes of a picture -/

section

variable {α : Type} [Scalar α]

/-- The four bytes of a color, each rounded to the nearest level. -/
def Color.bytes (c : Color α) : ByteArray :=
  ⟨#[byteOfLevel c.red, byteOfLevel c.green, byteOfLevel c.blue, byteOfLevel c.alpha]⟩

/-- A part of some lists of one length, put end to end. -/
theorem take_drop_flatMap {β γ : Type} {f : β → List γ} {n : Nat} (hf : ∀ b, (f b).length = n)
    {l : List β} {i : Nat} {b : β} (h : l[i]? = some b) :
    ((l.flatMap f).drop (i * n)).take n = f b := by
  induction l generalizing i with
  | nil => cases h
  | cons head l ih =>
    rw [List.flatMap_cons]
    cases i with
    | zero =>
      have hhead : head = b := Option.some_inj.mp h
      rw [← hhead, Nat.zero_mul, List.drop_zero, ← hf head]
      exact List.take_left
    | succ i =>
      rw [Nat.succ_mul, Nat.add_comm, ← List.drop_drop, ← hf head, List.drop_left, hf head]
      exact ih h

namespace Canvas

theorem toList_foldl_pushPixel (colors : List (Color α)) (out : ByteArray) :
    (colors.foldl pushPixel out).data.toList =
      out.data.toList ++ colors.flatMap fun color => color.bytes.data.toList := by
  induction colors generalizing out with
  | nil => exact (List.append_nil _).symm
  | cons color colors ih =>
    rw [List.foldl_cons, ih, List.flatMap_cons, ← List.append_assoc]
    congr 1
    unfold pushPixel
    simp only [ByteArray.data_push, Array.toList_push, List.append_assoc]
    rfl

theorem toList_bytes (c : Canvas α) :
    c.bytes.data.toList = c.pixels.toList.flatMap fun color => color.bytes.data.toList := by
  unfold bytes
  rw [← Array.foldl_toList, toList_foldl_pushPixel]
  rfl

theorem size_bytes (c : Canvas α) : c.bytes.size = c.pixels.size * 4 := by
  calc c.bytes.size = c.bytes.data.toList.length := rfl
    _ = (c.pixels.toList.map fun _ => 4).sum := by
      rw [toList_bytes, List.length_flatMap]
      rfl
    _ = c.pixels.size * 4 := by rw [List.map_const', List.sum_replicate_nat, Array.length_toList]

/-- A picture shows the bytes of the color that its canvas has there. -/
theorem pixel?_of_bytes {c : Canvas α} {x y : Nat} {color : Color α}
    (h : c.pixel? x y = some color) (stamp : Stamp) :
    OutputFrame.pixel? ⟨c.size, stamp, c.bytes⟩ x y = some color.bytes := by
  obtain ⟨hlt, _⟩ := Array.getElem?_eq_some_iff.mp h
  have hroom : (y * c.size.width.toNat + x) * 4 + 4 ≤ c.bytes.size := by
    rw [size_bytes]
    unfold offset at hlt
    omega
  unfold OutputFrame.pixel?
  dsimp only
  rw [if_pos hroom]
  congr 1
  apply ByteArray.ext
  apply Array.toList_inj.mp
  rw [ByteArray.data_extract, Array.toList_extract, List.extract_eq_take_drop, toList_bytes,
    Nat.add_sub_cancel_left]
  apply take_drop_flatMap
  · intro color
    rfl
  · rw [Array.getElem?_toList]
    exact h

end Canvas

end

/-! ## What a backend draws -/

/-- A layer that covers a pixel, of a source that has none. -/
def DrawOp.Starves {α : Type} [Scalar α] (op : DrawOp α) (sources : Both Source) (output : Size) :
    Prop :=
  match op with
  | layer shown => (sources.get shown.role).size.isEmpty = true ∧ ∃ x y, op.Covers output x y
  | _ => False

/-- Sides whose columns and rows are all numbers of single precision. -/
structure Size.IsDrawable (output : Size) : Prop where
  width_pos : 0 < output.width.toNat
  width_le : output.width.toNat ≤ 2 ^ 24
  height_pos : 0 < output.height.toNat
  height_le : output.height.toNat ≤ 2 ^ 24

/-- If all spans lie in the output, every step does. -/
theorem DrawOp.inside_of_spans {α : Type} [Scalar α] {output : Size}
    (h : ∀ (r : Rect α) x y, (Span.of r output).Covers x y →
      x < output.width.toNat ∧ y < output.height.toNat) (op : DrawOp α) : op.Inside output := by
  intro x y hcovers
  cases op with
  | fill rect => exact h rect x y hcovers
  | outline rect => exact h rect x y hcovers.1
  | layer shown => exact h shown.quad.rect x y hcovers

theorem DrawOp.inside_of_isDrawable {output : Size} (h : output.IsDrawable)
    (op : DrawOp Float32) : op.Inside output :=
  inside_of_spans
    (fun _ _ _ => Span.lt_of_covers h.width_pos h.width_le h.height_pos h.height_le) op

namespace Raster.State

variable {α : Type} {c : Config α} {s : State} {op : DrawOp Float32}

/-- Only a layer of a source without pixels has no color. -/
theorem starves_of_crash (hs : s.Shaped c) {x y : Nat} {crash : Crash}
    (hcovers : op.Covers c.output x y)
    (h : op.colorAt s.textures c.output x y = .error crash) : op.Starves c.sources c.output := by
  cases op with
  | fill => cases h
  | outline => cases h
  | layer shown =>
    refine ⟨?_, x, y, hcovers⟩
    by_contra hpixels
    rw [Bool.not_eq_true] at hpixels
    obtain ⟨color, hcolor⟩ := Texture.sample_of_pixels (hs.texture shown.role) hpixels
      (shown.quad.uvAtPixel c.output x y) shown.opacity
    change (s.textures.get shown.role).sample _ _ = _ at h
    rw [hcolor] at h
    cases h

theorem crash_of_starves (hs : s.Shaped c) (h : op.Starves c.sources c.output) :
    ∃ x y, op.Covers c.output x y ∧
      op.colorAt s.textures c.output x y = .error .emptyTexture := by
  cases op with
  | fill => exact h.elim
  | outline => exact h.elim
  | layer shown =>
    obtain ⟨hempty, x, y, hcovers⟩ := h
    exact ⟨x, y, hcovers, Texture.sample_of_isEmpty (hs.texture shown.role) hempty _ _⟩

theorem isWhole_of_shaped (hs : s.Shaped c) : s.canvas.IsWhole := by
  apply hs.canvas.isWhole
  exact Array.size_replicate

/-- What a drawing that comes to an end answers. -/
theorem render_of_canvas {ops : List (DrawOp Float32)} {canvas : Canvas Float32}
    (h : s.canvas.clear.drawAll s.textures ops = .ok canvas) (stamp : Stamp) :
    (s.render ops stamp).state = { s with canvas } ∧
      (s.render ops stamp).outcome =
        (if s.receiving then .done .presented else .failed disconnected) ∧
      (s.render ops stamp).effects =
        if s.receiving then [.frame ⟨canvas.size, stamp, canvas.bytes⟩] else [] := by
  unfold render
  rw [h]
  dsimp only
  split <;> exact ⟨rfl, rfl, rfl⟩

theorem render_of_crash {ops : List (DrawOp Float32)} {crash : Crash}
    (h : s.canvas.clear.drawAll s.textures ops = .error crash) (stamp : Stamp) :
    s.render ops stamp = ⟨s, .crashed crash, []⟩ := by
  unfold render
  rw [h]

section

variable {ops : List (DrawOp Float32)}

/-- A canvas that is cleared has room for all that is drawn, and only for that. -/
theorem inside_of_shaped (hs : s.Shaped c) (ho : c.output.IsDrawable) :
    ∀ op ∈ ops, op.Inside s.canvas.clear.size := by
  intro op _
  have hsize : s.canvas.clear.size = c.output := hs.canvas.1
  rw [hsize]
  exact DrawOp.inside_of_isDrawable ho op

theorem isWhole_clear (hs : s.Shaped c) : s.canvas.clear.IsWhole :=
  (Canvas.clear_self s.canvas).isWhole (isWhole_of_shaped hs)

/-- A drawing that crashes has asked a source without pixels for one. -/
theorem starves_of_drawAll (hs : s.Shaped c) (ho : c.output.IsDrawable) {crash : Crash}
    (h : s.canvas.clear.drawAll s.textures ops = .error crash) :
    ∃ op ∈ ops, op.Starves c.sources c.output := by
  have hsize : s.canvas.clear.size = c.output := hs.canvas.1
  obtain ⟨op, hop, x, y, hcovers, hcolor⟩ :=
    Canvas.crash_of_drawAll (isWhole_clear hs) (inside_of_shaped hs ho) h
  rw [hsize] at hcovers hcolor
  exact ⟨op, hop, starves_of_crash hs hcovers hcolor⟩

theorem crashes_iff (hs : s.Shaped c) (ho : c.output.IsDrawable) (stamp : Stamp) :
    (∃ crash, (s.render ops stamp).outcome = .crashed crash) ↔
      ∃ op ∈ ops, op.Starves c.sources c.output := by
  have hsize : s.canvas.clear.size = c.output := hs.canvas.1
  cases hdraw : s.canvas.clear.drawAll s.textures ops with
  | error crash =>
    rw [render_of_crash hdraw]
    exact ⟨fun _ => starves_of_drawAll hs ho hdraw, fun _ => ⟨crash, rfl⟩⟩
  | ok canvas =>
    have hcolors := Canvas.colors_of_drawAll (isWhole_clear hs) (inside_of_shaped hs ho) hdraw
    rw [(render_of_canvas hdraw stamp).2.1]
    constructor
    · rintro ⟨crash, hcrash⟩
      split at hcrash <;> cases hcrash
    · rintro ⟨op, hop, hstarves⟩
      obtain ⟨x, y, hcovers, herror⟩ := crash_of_starves hs hstarves
      rw [hsize] at hcolors
      obtain ⟨color, hcolor⟩ := hcolors op hop x y hcovers
      rw [herror] at hcolor
      cases hcolor

/-- Each pixel of a drawing that comes to an end has the color of the reference. -/
theorem pixel_of_canvas (hs : s.Shaped c) (ho : c.output.IsDrawable) {canvas : Canvas Float32}
    (h : s.canvas.clear.drawAll s.textures ops = .ok canvas) {x y : Nat}
    (hx : x < c.output.width.toNat) (hy : y < c.output.height.toNat) :
    ∃ color, reference s.textures c.output ops x y = .ok color ∧
      canvas.pixel? x y = some color := by
  have hsize : s.canvas.clear.size = c.output := hs.canvas.1
  rw [← hsize] at hx hy
  obtain ⟨dst, color, hdst, hfold, hcolor⟩ :=
    Canvas.pixel_of_drawAll (isWhole_clear hs) (inside_of_shaped hs ho) hx hy h
  rw [Canvas.pixel?_clear (isWhole_of_shaped hs) hx hy] at hdst
  cases hdst
  rw [hsize] at hfold
  exact ⟨color, hfold, hcolor⟩

/-- Canvases of one output are the same when they are cleared. -/
theorem clear_of_shaped {c' : Config α} {s' : State} (hs : s.Shaped c) (hs' : s'.Shaped c')
    (ho : c.output = c'.output) : s.canvas.clear = s'.canvas.clear := by
  have hleft := hs.canvas
  have hright := hs'.canvas
  rw [← ho] at hright
  exact Canvas.clear_alike ⟨hleft.1.trans hright.1.symm, hleft.2.trans hright.2.symm⟩

/-- What was drawn before makes no difference to a drawing. -/
theorem render_congr {s' : State} (hs : s.Shaped c) (hs' : s'.Shaped c)
    (htextures : s'.textures = s.textures) (hreceiving : s'.receiving = s.receiving)
    (stamp : Stamp) :
    (s'.render ops stamp).outcome = (s.render ops stamp).outcome ∧
      (s'.render ops stamp).effects = (s.render ops stamp).effects := by
  unfold render
  rw [clear_of_shaped hs' hs rfl, htextures, hreceiving]
  split
  · exact ⟨rfl, rfl⟩
  · dsimp only
    split <;> exact ⟨rfl, rfl⟩

end

/-- A drawing crashes if and only if a layer covers a pixel and has none to show there. Otherwise
each pixel of the output has the color that the reference comes to, and the picture has its four
bytes. Of the earlier pictures nothing counts. -/
theorem pictures_are_drawn_pixel_by_pixel (hs : Reached c s) (ho : c.output.IsDrawable)
    (ops : List (DrawOp Float32)) (stamp : Stamp) :
    let reply := s.render ops stamp
    ((∃ crash, reply.outcome = .crashed crash) ↔ ∃ op ∈ ops, op.Starves c.sources c.output) ∧
      ((∀ op ∈ ops, ¬ op.Starves c.sources c.output) →
        reply.outcome = (if s.receiving then .done .presented else .failed disconnected) ∧
        (s.receiving = true → ∃ picture, reply.effects = [.frame picture] ∧
          picture.size = c.output ∧ picture.stamp = stamp ∧
          picture.pixels.size = c.output.width.toNat * c.output.height.toNat * 4) ∧
        ∀ x y, x < c.output.width.toNat → y < c.output.height.toNat →
          ∃ color, reference s.textures c.output ops x y = .ok color ∧
            reply.state.canvas.pixel? x y = some color ∧
            ∀ picture, .frame picture ∈ reply.effects → picture.pixel? x y = some color.bytes) ∧
      ∀ s', Reached c s' → s'.textures = s.textures → s'.receiving = s.receiving →
        (s'.render ops stamp).outcome = reply.outcome ∧
          (s'.render ops stamp).effects = reply.effects := by
  intro reply
  have hshaped := shaped_of_reached hs
  refine ⟨crashes_iff hshaped ho stamp, ?_, ?_⟩
  · intro hfed
    cases hdraw : s.canvas.clear.drawAll s.textures ops with
    | error crash =>
      obtain ⟨op, hop, hstarves⟩ := starves_of_drawAll hshaped ho hdraw
      exact absurd hstarves (hfed op hop)
    | ok canvas =>
      have halike := (Canvas.alike_drawAll hdraw).trans (Canvas.clear_self _)
      have hsize : canvas.size = c.output := halike.1.trans hshaped.canvas.1
      obtain ⟨hstate, houtcome, heffects⟩ := render_of_canvas hdraw stamp
      refine ⟨houtcome, ?_, ?_⟩
      · intro hreceiving
        rw [if_pos hreceiving] at heffects
        refine ⟨_, heffects, hsize, rfl, ?_⟩
        change canvas.bytes.size = _
        rw [Canvas.size_bytes, halike.isWhole (isWhole_of_shaped hshaped), hsize]
        rfl
      · intro x y hx hy
        obtain ⟨color, hfold, hcolor⟩ := pixel_of_canvas hshaped ho hdraw hx hy
        refine ⟨color, hfold, ?_, ?_⟩
        · change (s.render ops stamp).state.canvas.pixel? x y = _
          rw [hstate]
          exact hcolor
        · intro picture hpicture
          change .frame picture ∈ (s.render ops stamp).effects at hpicture
          rw [heffects] at hpicture
          split at hpicture
          · cases List.mem_singleton.mp hpicture
            exact Canvas.pixel?_of_bytes hcolor stamp
          · cases hpicture
  · intro s' hs' htextures hreceiving
    exact render_congr hshaped (shaped_of_reached hs') htextures hreceiving stamp

/-- A source of one pixel fills an output of one row, and a border is drawn over it. The row is
the first and the last one of the border, and each of its pixels is blended once. -/
theorem a_border_of_one_row_is_blended_once :
    let c : Config Float32 := .withSizes ⟨1, 1⟩ ⟨1, 1⟩ ⟨3, 1⟩
    let frame : Frame := .packed ⟨1, 1, 4, 4, ⟨#[200, 100, 0, 7]⟩⟩
    let s := ((blank c).upload .primary frame).state
    let ops : List (DrawOp Float32) :=
      [.layer ⟨.primary, .packed .rgba, .of .full .full .deg0, 1⟩,
        .outline .full ⟨0, 0, 1, Scalar.half⟩]
    Reached c s ∧ c.output.IsDrawable ∧ (∀ op ∈ ops, ¬ op.Starves c.sources c.output) ∧
      ∃ picture, (s.render ops ⟨0, 0⟩).effects = [.frame picture] ∧
        picture.pixels.size = 12 ∧ picture.pixel? 1 0 = some ⟨#[100, 50, 128, 255]⟩ := by
  intro c frame s ops
  have hnew : Reached c (blank c) := .create (create_eq_ok.mpr ⟨by decide +kernel, rfl⟩)
  have hs : Reached c s := hnew.upload .primary frame
  have ho : c.output.IsDrawable := ⟨by decide, by decide, by decide, by decide⟩
  have hfed : ∀ op ∈ ops, ¬ op.Starves c.sources c.output := by
    intro op hop
    rcases List.mem_cons.mp hop with rfl | hop
    · rintro ⟨hempty, _⟩
      exact absurd hempty (by decide)
    · cases List.mem_singleton.mp hop
      exact id
  obtain ⟨_, hdrawn, _⟩ := pictures_are_drawn_pixel_by_pixel hs ho ops ⟨0, 0⟩
  obtain ⟨_, hpicture, hpixels⟩ := hdrawn hfed
  obtain ⟨picture, heffects, _, _, hsize⟩ := hpicture (by decide +kernel)
  obtain ⟨color, hcolor, _, hbytes⟩ := hpixels 1 0 (by decide) (by decide)
  have hrounded : (reference s.textures c.output ops 1 0).map Color.bytes =
      .ok ⟨#[100, 50, 128, 255]⟩ := by
    decide +kernel
  rw [hcolor] at hrounded
  have hshown := hbytes picture (by rw [heffects]; exact List.mem_singleton_self _)
  rw [Except.ok.inj hrounded] at hshown
  exact ⟨hs, ho, hfed, picture, heffects, hsize, hshown⟩

end Raster.State

end PictureInPicture
