-- What is chosen of that which a surface offers. Frames can be shown in four formats. A linear one
-- comes before the others, and among formats of one encoding the order of the surface decides.
-- Where only encoded formats are offered, frames are drawn through a linear view.
import PictureInPicture.Gpu.Surface

namespace PictureInPicture.Gpu

/-! ## Formats -/

/-- The formats that frames can be shown in. -/
def shownFormats : List TextureFormat :=
  [.rgba8Unorm, .bgra8Unorm, .rgba8UnormSrgb, .bgra8UnormSrgb]

namespace TextureFormat

variable {format : TextureFormat}

theorem isEightBitColor_iff : format.isEightBitColor = true ↔ format ∈ shownFormats := by
  cases format <;> simp [isEightBitColor, shownFormats]

/-- No format has more than one encoding to take away. -/
theorem isSrgb_linear (format : TextureFormat) : format.linear.isSrgb = false := by
  cases format <;> simp [linear, isSrgb]

theorem linear_of_not_isSrgb (h : format.isSrgb = false) : format.linear = format := by
  cases format with
  | rgba8UnormSrgb => cases h
  | bgra8UnormSrgb => cases h
  | other format =>
    obtain ⟨name, linearName, channels, isRenderable⟩ := format
    have hname : linearName = name := by simpa [isSrgb] using h
    subst hname
    rfl
  | _ => rfl

end TextureFormat

/-- A format of a list in which frames can be shown. An encoded one stands there only for want of a
linear one, and of its own encoding it is the first. -/
structure Chosen (formats : List TextureFormat) (format : TextureFormat) : Prop where
  shown : format ∈ shownFormats
  linear_first : format.isSrgb = true → ∀ f ∈ formats, f ∈ shownFormats → f.isSrgb = true
  first : ∃ before after, formats = before ++ format :: after ∧
    ∀ f ∈ before, f ∈ shownFormats → f.isSrgb ≠ format.isSrgb

theorem Chosen.mem {formats : List TextureFormat} {format : TextureFormat}
    (h : Chosen formats format) : format ∈ formats := by
  obtain ⟨before, after, rfl, _⟩ := h.first
  simp

section

variable {formats : List TextureFormat} {format : TextureFormat} {notices : List Notice}

/-- The choice looks for a linear format first, and then for any. -/
theorem selectFormat_eq (formats : List TextureFormat) :
    selectFormat formats =
      match formats.find? fun f => f.isEightBitColor && !f.isSrgb with
      | some format => .ok (format, [])
      | none =>
        match formats.find? (·.isEightBitColor) with
        | some format => .ok (format, [.linearFormatMissing format])
        | none =>
          .error ("no 8-bit RGBA surface format among " ++ TextureFormat.listText formats) := by
  have hlinear : (formats.filter (·.isEightBitColor)).find? (!·.isSrgb) =
      formats.find? fun f => f.isEightBitColor && !f.isSrgb := by
    rw [List.find?_filter]
    simp only [Bool.decide_and, Bool.decide_eq_true]
  have hany : (formats.filter (·.isEightBitColor)).head? = formats.find? (·.isEightBitColor) :=
    List.head?_filter
  rw [← hlinear, ← hany]
  rfl

theorem chosen_of_linear
    (h : formats.find? (fun f => f.isEightBitColor && !f.isSrgb) = some format) :
    Chosen formats format ∧ format.isSrgb = false := by
  obtain ⟨hformat, before, after, hsplit, hbefore⟩ := List.find?_eq_some_iff_append.mp h
  rw [Bool.and_eq_true, Bool.not_eq_true', TextureFormat.isEightBitColor_iff] at hformat
  refine ⟨⟨hformat.1, ?_, before, after, hsplit, ?_⟩, hformat.2⟩
  · intro hsrgb
    rw [hformat.2] at hsrgb
    cases hsrgb
  · intro f hf hshown
    have hnot := hbefore f hf
    rw [TextureFormat.isEightBitColor_iff.mpr hshown] at hnot
    rw [hformat.2]
    simpa using hnot

theorem isSrgb_of_no_linear
    (h : formats.find? (fun f => f.isEightBitColor && !f.isSrgb) = none) :
    ∀ f ∈ formats, f ∈ shownFormats → f.isSrgb = true := by
  intro f hf hshown
  have hnot := List.find?_eq_none.mp h f hf
  rw [TextureFormat.isEightBitColor_iff.mpr hshown] at hnot
  simpa using hnot

theorem chosen_of_encoded
    (hlinear : formats.find? (fun f => f.isEightBitColor && !f.isSrgb) = none)
    (h : formats.find? (·.isEightBitColor) = some format) :
    Chosen formats format ∧ format.isSrgb = true := by
  have hencoded := isSrgb_of_no_linear hlinear
  obtain ⟨hformat, before, after, hsplit, hbefore⟩ := List.find?_eq_some_iff_append.mp h
  rw [TextureFormat.isEightBitColor_iff] at hformat
  have hsrgb := hencoded format (List.mem_of_find?_eq_some h) hformat
  refine ⟨⟨hformat, fun _ => hencoded, before, after, hsplit, ?_⟩, hsrgb⟩
  intro f hf hshown
  have hnot := hbefore f hf
  rw [TextureFormat.isEightBitColor_iff.mpr hshown] at hnot
  cases hnot

/-- A format that is selected is the one to be chosen, and an encoded one is warned of. -/
theorem chosen_of_selectFormat (h : selectFormat formats = .ok (format, notices)) :
    Chosen formats format ∧
      notices = if format.isSrgb then [.linearFormatMissing format] else [] := by
  rw [selectFormat_eq] at h
  split at h
  · rename_i hlinear
    cases h
    obtain ⟨hchosen, hsrgb⟩ := chosen_of_linear hlinear
    rw [hsrgb]
    exact ⟨hchosen, rfl⟩
  · rename_i hlinear
    split at h
    · rename_i hany
      cases h
      obtain ⟨hchosen, hsrgb⟩ := chosen_of_encoded hlinear hany
      rw [hsrgb]
      exact ⟨hchosen, rfl⟩
    · cases h

/-- The choice fails if and only if there is none. -/
theorem selectFormat_fails_iff :
    (∃ reason, selectFormat formats = .error reason) ↔ ∀ f ∈ shownFormats, f ∉ formats := by
  constructor
  · rintro ⟨reason, h⟩ f hshown hf
    rw [selectFormat_eq] at h
    split at h
    · cases h
    · split at h
      · cases h
      · rename_i hnone
        exact List.find?_eq_none.mp hnone f hf (TextureFormat.isEightBitColor_iff.mpr hshown)
  · intro hnone
    cases h : selectFormat formats with
    | error reason => exact ⟨reason, rfl⟩
    | ok selected =>
      obtain ⟨hchosen, _⟩ := chosen_of_selectFormat h
      exact absurd hchosen.mem (hnone _ hchosen.shown)

/-- Frames are drawn in the format of the surface or in a view that the surface allows, and never
encoded a second time. -/
theorem renderFormat_of (size : Size) (format : TextureFormat) :
    let surface := SurfaceConfig.of size format
    surface.renderFormat.isSrgb = false ∧
      (surface.renderFormat = surface.format ∨ surface.renderFormat ∈ surface.views) := by
  refine ⟨format.isSrgb_linear, ?_⟩
  cases h : format.isSrgb with
  | false => exact .inl (TextureFormat.linear_of_not_isSrgb h)
  | true =>
    refine .inr ?_
    change format.linear ∈ viewFormats format
    unfold viewFormats
    rw [if_pos h]
    exact List.mem_singleton_self _

end

/-! ## Modes -/

theorem selectPresentMode_of_mem {modes : List PresentMode} {preference : PresentPreference}
    (h : .ofPreference preference ∈ modes) :
    (selectPresentMode modes preference).1 = .ofPreference preference := by
  unfold selectPresentMode
  dsimp only
  rw [if_pos (List.contains_iff_mem.mpr h)]

theorem selectPresentMode_mem {modes : List PresentMode} (h : .fifo ∈ modes)
    (preference : PresentPreference) : (selectPresentMode modes preference).1 ∈ modes := by
  by_cases hpreferred : .ofPreference preference ∈ modes
  · rw [selectPresentMode_of_mem hpreferred]
    exact hpreferred
  · unfold selectPresentMode
    dsimp only
    rw [if_neg (mt List.contains_iff_mem.mp hpreferred)]
    exact h

theorem selectAlphaMode_of_mem {modes : List AlphaMode} (h : .solid ∈ modes) :
    selectAlphaMode modes = .solid := by
  unfold selectAlphaMode
  rw [if_pos (List.contains_iff_mem.mpr h)]

theorem selectAlphaMode_mem {modes : List AlphaMode} (h : modes ≠ []) :
    selectAlphaMode modes ∈ modes := by
  by_cases hsolid : .solid ∈ modes
  · rw [selectAlphaMode_of_mem hsolid]
    exact hsolid
  · unfold selectAlphaMode
    rw [if_neg (mt List.contains_iff_mem.mp hsolid)]
    cases modes with
    | nil => exact absurd rfl h
    | cons mode modes => exact List.mem_cons_self ..

/-! ## The law -/

/-- Of a surface that offers a queue and some alpha mode only what it offers is chosen. There is no
format for it if and only if it has none of the four in which frames can be shown. Otherwise the
first linear one of them is chosen, or the first at all with a warning if none is linear, and frames
are drawn in that format or in its one view, which is linear. The preferred modes are taken wherever
they are offered. -/
theorem surfaces_are_set_up_with_what_they_offer (formats : List TextureFormat)
    (modes : List PresentMode) (alphas : List AlphaMode) (preference : PresentPreference)
    (hmodes : .fifo ∈ modes) (halphas : alphas ≠ []) :
    ((∃ reason, selectFormat formats = .error reason) ↔ ∀ f ∈ shownFormats, f ∉ formats) ∧
      (∀ format notices, selectFormat formats = .ok (format, notices) →
        format ∈ formats ∧ format ∈ shownFormats ∧
          (format.isSrgb = true → ∀ f ∈ formats, f ∈ shownFormats → f.isSrgb = true) ∧
          (∃ before after, formats = before ++ format :: after ∧
            ∀ f ∈ before, f ∈ shownFormats → f.isSrgb ≠ format.isSrgb) ∧
          (notices = if format.isSrgb then [.linearFormatMissing format] else []) ∧
          ∀ size, let surface := SurfaceConfig.of size format
            surface.format = format ∧ surface.views = viewFormats format ∧
              surface.renderFormat.isSrgb = false ∧
              (surface.renderFormat = format ∨ surface.renderFormat ∈ viewFormats format)) ∧
      (selectPresentMode modes preference).1 ∈ modes ∧
      (.ofPreference preference ∈ modes →
        (selectPresentMode modes preference).1 = .ofPreference preference) ∧
      selectAlphaMode alphas ∈ alphas ∧ (.solid ∈ alphas → selectAlphaMode alphas = .solid) := by
  refine ⟨selectFormat_fails_iff, ?_, selectPresentMode_mem hmodes preference,
    selectPresentMode_of_mem, selectAlphaMode_mem halphas, selectAlphaMode_of_mem⟩
  intro format notices h
  obtain ⟨hchosen, hnotices⟩ := chosen_of_selectFormat h
  refine ⟨hchosen.mem, hchosen.shown, hchosen.linear_first, hchosen.first, hnotices, ?_⟩
  intro size surface
  obtain ⟨hlinear, hviewed⟩ := renderFormat_of size format
  exact ⟨rfl, rfl, hlinear, hviewed⟩

/-- A surface with encoded formats only, behind one in which no frame can be shown. The first of
them is chosen, and frames are drawn in its linear view. -/
theorem an_encoded_surface_is_drawn_through_a_view :
    let formats : List TextureFormat := [.rgba16Float, .bgra8UnormSrgb, .rgba8UnormSrgb]
    let surface := SurfaceConfig.of ⟨1280, 720⟩ .bgra8UnormSrgb
    selectFormat formats = .ok (.bgra8UnormSrgb, [.linearFormatMissing .bgra8UnormSrgb]) ∧
      .bgra8Unorm ∉ formats ∧ surface.renderFormat = .bgra8Unorm ∧
      surface.renderFormat ∈ viewFormats .bgra8UnormSrgb ∧
      (selectPresentMode [.immediate, .fifo] .mailbox).1 ∈ [.immediate, .fifo] ∧
      selectAlphaMode [.preMultiplied, .inherit] ∈ [.preMultiplied, .inherit] := by
  intro formats surface
  have hselected : selectFormat formats =
      .ok (.bgra8UnormSrgb, [.linearFormatMissing .bgra8UnormSrgb]) := rfl
  obtain ⟨_, hchosen, hmode, _, halpha, _⟩ :=
    surfaces_are_set_up_with_what_they_offer formats [.immediate, .fifo]
      [.preMultiplied, .inherit] .mailbox (by decide) (by decide)
  obtain ⟨_, _, _, _, _, hsurface⟩ := hchosen _ _ hselected
  obtain ⟨_, _, _, hviewed⟩ := hsurface ⟨1280, 720⟩
  have hview : surface.renderFormat ∈ viewFormats .bgra8UnormSrgb :=
    hviewed.resolve_left (by decide)
  exact ⟨hselected, by decide, rfl, hview, hmode, halpha⟩

end PictureInPicture.Gpu
