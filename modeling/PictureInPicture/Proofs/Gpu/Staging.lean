-- The draws of a plan. No two steps of a plan have the same slot, so every draw reads what its own
-- step has written, although all writes come before the first draw. What a draw binds has the
-- layouts that its pipeline was made for.
import Mathlib.Data.List.Forall2
import Mathlib.Data.List.Induction
import Mathlib.Data.List.Nodup
import PictureInPicture.Gpu.Pass
import PictureInPicture.Proofs.Plan

namespace PictureInPicture

namespace Gpu

variable {α : Type}

/-! ## What a slot holds -/

section

variable {m : Memories α} {w : Staged α} {slot : Slot} {p : Prepared α}

theorem Memories.writeAll_concat (m : Memories α) (writes : List (Staged α)) (w : Staged α) :
    m.writeAll (writes ++ [w]) = (m.writeAll writes).write w := by
  unfold writeAll
  exact List.foldl_concat ..

/-- The last write to a slot is at the front of its memory. -/
theorem front_of_content {writes : List (Staged α)}
    (h : writes.reverse.find? (·.slot = slot) = some w) :
    (m.writeAll writes slot).vertices.take w.vertices.length = w.vertices ∧
      (m.writeAll writes slot).uniforms = w.uniforms := by
  induction writes using List.reverseRecOn with
  | nil => cases h
  | append_singleton writes last ih =>
    rw [List.reverse_concat, List.find?_cons] at h
    rw [Memories.writeAll_concat]
    unfold Memories.write
    by_cases hslot : last.slot = slot
    · rw [decide_eq_true hslot] at h
      cases h
      rw [if_pos hslot]
      exact ⟨List.take_left, rfl⟩
    · rw [decide_eq_false hslot] at h
      rw [if_neg hslot]
      exact ih h

/-- Where no two writes go to one slot, a slot holds what was written to it. -/
theorem content?_of_mem (hnodup : (p.writes.map (·.slot)).Nodup) (hw : w ∈ p.writes) :
    p.content? w.slot = some w := by
  unfold Prepared.content?
  cases hfind : p.writes.reverse.find? (·.slot = w.slot) with
  | none =>
    rw [List.find?_eq_none] at hfind
    exact absurd (decide_eq_true rfl) (hfind w (List.mem_reverse.mpr hw))
  | some last =>
    have hlast : last ∈ p.writes := List.mem_reverse.mp (List.mem_of_find?_eq_some hfind)
    have hslot := List.find?_some hfind
    rw [decide_eq_true_eq] at hslot
    rw [List.inj_on_of_nodup_map hnodup hlast hw hslot]

end

/-! ## What a step draws -/

theorem slot_ofOp [Scalar α] (op : DrawOp α) : (Draw.ofOp op).slot = (Staged.ofOp op).slot := by
  cases op <;> rfl

/-- A draw has as many vertices as its step writes. -/
theorem vertexCount_ofOp [Scalar α] (op : DrawOp α) :
    (Draw.ofOp op).vertexCount = (Staged.ofOp op).vertices.length := by
  cases op <;> rfl

theorem vertexCount_le (op : DrawOp α) : (Draw.ofOp op).vertexCount ≤ maxVertices := by
  cases op with
  | fill => exact Nat.le_of_lt (Nat.lt_succ_self 4)
  | outline => exact Nat.le_refl 5
  | layer => exact Nat.le_of_lt (Nat.lt_succ_self 4)

/-- The draw of a step with its own vertices and uniform values. -/
def drawn [Scalar α] (sources : Both SourceTextures) : DrawOp α → Executed α
  | .fill rect color => ⟨.fill, [Slot.backing.group], fillVertices rect, .plain color⟩
  | .outline rect color => ⟨.outline, [Slot.border.group], outlineVertices rect, .plain color⟩
  | .layer shown =>
    ⟨.textured shown.format.packing,
      [(Slot.layer shown.role).group, (sources.get shown.role).group],
      quadVertices shown.quad, .textured shown.opacity⟩

theorem drawn_eq [Scalar α] (sources : Both SourceTextures) (op : DrawOp α) :
    drawn sources op = ⟨(Draw.ofOp op).pipeline, (Draw.ofOp op).groups sources,
      (Staged.ofOp op).vertices, (Staged.ofOp op).uniforms⟩ := by
  cases op <;> rfl

/-- Steps with slots of their own draw what they wrote, whatever was in the slots before. -/
theorem execute_of_nodup [Scalar α] {ops : List (DrawOp α)}
    (hnodup : (ops.map fun op => (Draw.ofOp op).slot).Nodup) (sources : Both SourceTextures)
    (m : Memories α) : (prepare ops).execute sources m = ops.map (drawn sources) := by
  have hwrites : ((prepare ops).writes.map (·.slot)).Nodup := by
    change ((ops.map Staged.ofOp).map (·.slot)).Nodup
    simp only [slot_ofOp] at hnodup
    rw [List.map_map]
    exact hnodup
  unfold Prepared.execute
  change (ops.map Draw.ofOp).map _ = _
  rw [List.map_map]
  apply List.map_congr_left
  intro op hop
  have hcontent := content?_of_mem hwrites (List.mem_map_of_mem hop)
  obtain ⟨hvertices, huniforms⟩ := front_of_content (m := m) hcontent
  rw [← vertexCount_ofOp, ← slot_ofOp] at hvertices
  rw [← slot_ofOp] at huniforms
  rw [drawn_eq, ← hvertices, ← huniforms]
  rfl

/-! ## What a draw binds -/

/-- What stands in a group stands where its layout says. -/
def BindGroup.Matches (g : BindGroup) : Prop :=
  g.resources.map (fun (resource, binding) => ⟨binding, resource.kind⟩) = g.layout

theorem matches_slot (slot : Slot) : slot.group.Matches := rfl

theorem matches_source (t : SourceTextures) : t.group.Matches := by
  cases t <;> rfl

/-- The textures of a source are bound for the packing that it declares. -/
theorem packing_allocate (source : Source) :
    (SourceTextures.allocate source).packing = source.format.packing := by
  unfold SourceTextures.allocate
  cases source.format with
  | packed order => cases order <;> rfl
  | planar => rfl

/-- A step shows a source in the format that it declares. -/
def Declares (sources : Both Source) : DrawOp α → Prop
  | .layer shown => shown.format = (sources.get shown.role).format
  | _ => True

/-- A step that shows a source as it is declared binds what its pipeline was made for. -/
theorem layouts_of_declares [Scalar α] {sources : Both Source} {op : DrawOp α}
    (h : Declares sources op) :
    (drawn (sources.map .allocate) op).groups.map (·.layout) =
      (drawn (sources.map .allocate) op).pipeline.layouts := by
  cases op with
  | fill => rfl
  | outline => rfl
  | layer shown =>
    have hformat : shown.format = (sources.get shown.role).format := h
    change [layerLayout,
        groupLayout ((sources.map SourceTextures.allocate).get shown.role).packing] =
      [layerLayout, groupLayout shown.format.packing]
    rw [Both.get_map, packing_allocate, hformat]

/-- No other pipeline takes the groups of a pipeline that samples a source. -/
theorem pipeline_of_layouts {pipeline : Pipeline} {packing : Packing}
    (h : (Pipeline.textured packing).layouts = pipeline.layouts) :
    pipeline = .textured packing := by
  cases pipeline with
  | textured packing' => cases packing <;> cases packing' <;> first | rfl | cases h
  | fill => cases h
  | outline => cases h

theorem matches_drawn [Scalar α] (sources : Both SourceTextures) (op : DrawOp α) :
    ∀ group ∈ (drawn sources op).groups, group.Matches := by
  cases op with
  | fill => exact List.forall_mem_singleton.mpr (matches_slot _)
  | outline => exact List.forall_mem_singleton.mpr (matches_slot _)
  | layer =>
    exact List.forall_mem_cons.mpr
      ⟨matches_slot _, List.forall_mem_singleton.mpr (matches_source _)⟩

end Gpu

/-! ## The steps of a plan -/

namespace Plan

variable {α : Type}

/-- The slots of the steps of a plan stand in one order, whichever sources hold a picture. -/
theorem slots_drawOps (p : Plan α) (residency : Residency) :
    ((p.drawOps residency).map fun op => (Gpu.Draw.ofOp op).slot).Sublist
      [.layer p.background.role, .backing, .border, .layer p.overlay.role] := by
  unfold drawOps
  rw [List.map_append]
  change List.Sublist _ ([Gpu.Slot.layer p.background.role] ++
    ([Gpu.Slot.backing, Gpu.Slot.border] ++ [Gpu.Slot.layer p.overlay.role]))
  apply List.Sublist.append
  · split
    · exact List.Sublist.refl _
    · exact List.nil_sublist _
  · split
    · rw [List.map_append]
      refine List.Sublist.append ?_ (List.Sublist.refl _)
      split
      · exact List.Sublist.refl _
      · exact List.nil_sublist _
    · exact List.nil_sublist _

variable [Scalar α]

/-- No two steps of a plan have one slot. -/
theorem nodup_slots (c : Config α) (residency : Residency) :
    (((ofConfig c).drawOps residency).map fun op => (Gpu.Draw.ofOp op).slot).Nodup := by
  apply (slots_drawOps (ofConfig c) residency).nodup
  change [Gpu.Slot.layer c.layout.background, .backing, .border,
    .layer c.layout.background.other].Nodup
  cases c.layout.background <;> decide

theorem declares_drawOps (c : Config α) (residency : Residency) :
    ∀ op ∈ (ofConfig c).drawOps residency, Gpu.Declares c.sources op := by
  intro op hop
  rcases mem_drawOps hop with rfl | rfl | ⟨f, _, rfl | rfl⟩
  · exact rfl
  · exact rfl
  · trivial
  · trivial

end Plan

namespace Gpu

/-- The numbers of the slots tell them apart. -/
theorem Slot.index_injective : Function.Injective index := by
  intro slot slot' h
  cases slot with
  | layer role =>
    cases slot' with
    | layer role' => cases role <;> cases role' <;> first | rfl | cases h
    | backing => cases role <;> cases h
    | border => cases role <;> cases h
  | backing =>
    cases slot' with
    | layer role' => cases role' <;> cases h
    | backing => rfl
    | border => cases h
  | border =>
    cases slot' with
    | layer role' => cases role' <;> cases h
    | backing => cases h
    | border => rfl

/-- For any settings and whichever sources hold a picture, no two draws of a plan have one slot.
Although all memories are written before the first draw, every draw reads exactly the vertices and
the uniform values of its own step, in the order of the steps and whatever was in the memories
before. It takes as many vertices as were written, for which there is room in its slot. The groups
that it binds were made with the layouts of its pipeline, for a layer those of the packing that the
textures of its source have, and the pipeline for the other packing would not take them. -/
theorem every_draw_reads_what_its_step_wrote {α : Type} [Scalar α] (c : Config α)
    (residency : Residency) (m : Memories α) :
    let ops := (Plan.ofConfig c).drawOps residency
    let sources := c.sources.map SourceTextures.allocate
    let prepared := prepare ops
    (prepared.draws.map (·.slot.index)).Nodup ∧
      prepared.execute sources m = ops.map (drawn sources) ∧
      List.Forall₂ (fun op draw => draw.slot = (Staged.ofOp op).slot ∧
        draw.vertexCount = (Staged.ofOp op).vertices.length ∧ draw.vertexCount ≤ maxVertices)
        ops prepared.draws ∧
      ∀ executed ∈ prepared.execute sources m,
        executed.groups.map (·.layout) = executed.pipeline.layouts ∧
          (∀ packing, (Pipeline.textured packing).layouts = executed.groups.map (·.layout) →
            executed.pipeline = .textured packing) ∧
          ∀ group ∈ executed.groups, group.Matches := by
  intro ops sources prepared
  have hnodup := Plan.nodup_slots c residency
  have hexecute : prepared.execute sources m = ops.map (drawn sources) :=
    execute_of_nodup hnodup sources m
  refine ⟨?_, hexecute, ?_, ?_⟩
  · change ((ops.map Draw.ofOp).map (·.slot.index)).Nodup
    have hindices := hnodup.map Slot.index_injective
    rw [List.map_map] at hindices ⊢
    exact hindices
  · change List.Forall₂ _ ops (ops.map Draw.ofOp)
    rw [List.forall₂_map_right_iff, List.forall₂_same]
    intro op _
    exact ⟨slot_ofOp op, vertexCount_ofOp op, vertexCount_le op⟩
  · rw [hexecute]
    intro executed hexecuted
    obtain ⟨op, hop, rfl⟩ := List.mem_map.mp hexecuted
    have hlayouts := layouts_of_declares (Plan.declares_drawOps c residency op hop)
    refine ⟨hlayouts, ?_, matches_drawn sources op⟩
    intro packing hpacking
    exact pipeline_of_layouts (hpacking.trans hlayouts)

end Gpu

end PictureInPicture
