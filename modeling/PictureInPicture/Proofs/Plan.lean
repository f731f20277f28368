-- The steps of a plan. Besides the layers of its two sources it has the backing and the border of
-- the frame, and nothing else.
import PictureInPicture.Plan

namespace PictureInPicture.Plan

/-- A step of a plan is a layer of one of the sources, or a part of the frame. -/
theorem mem_drawOps {α : Type} {p : Plan α} {r : Residency} {op : DrawOp α}
    (h : op ∈ p.drawOps r) :
    op = .layer p.background ∨ op = .layer p.overlay ∨
      ∃ f, p.frame = some f ∧ (op = .fill f.rect f.backing ∨ op = .outline f.rect f.border) := by
  unfold drawOps at h
  rcases List.mem_append.mp h with h | h
  · split at h
    · exact .inl (List.mem_singleton.mp h)
    · cases h
  · split at h
    · rcases List.mem_append.mp h with h | h
      · split at h
        · rename_i f hframe
          refine .inr (.inr ⟨f, hframe, ?_⟩)
          rwa [List.mem_cons, List.mem_singleton] at h
        · cases h
      · exact .inr (.inl (List.mem_singleton.mp h))
    · cases h

theorem colors_of_frame {α : Type} [Scalar α] {c : Config α} {f : OverlayFrame α}
    (h : (ofConfig c).frame = some f) : f.backing = backingColor ∧ f.border = borderColor := by
  unfold ofConfig at h
  dsimp only at h
  split at h
  · cases h
    exact ⟨rfl, rfl⟩
  · cases h

/-- The frame is drawn right before the overlay, and only together with it. -/
theorem drawOps_of_frame {α : Type} {p : Plan α} {f : OverlayFrame α} (h : p.frame = some f)
    (r : Residency) :
    p.drawOps r = (if r.contains p.background.role then [.layer p.background] else []) ++
      if r.contains p.overlay.role then
        [.fill f.rect f.backing, .outline f.rect f.border] ++ [.layer p.overlay]
      else [] := by
  unfold drawOps
  rw [h]

end PictureInPicture.Plan
