-- What a texture shows at a point. A texture of the shape of its source has a color everywhere,
-- unless the source has no pixels at all.
import PictureInPicture.Proofs.Raster.Upload

namespace PictureInPicture

variable {α : Type} [Scalar α]

/-! ## The pixel at a point -/

theorem texelIndex_of_pos (coordinate : α) {side : UInt32} (h : 0 < side.toNat) :
    ∃ i, texelIndex coordinate side = .ok i ∧ i < side.toNat := by
  have hside : side ≠ 0 := by
    rintro rfl
    exact Nat.lt_irrefl 0 h
  unfold texelIndex
  rw [if_neg hside]
  exact ⟨_, rfl, by omega⟩

/-- Every point has a pixel that is nearest to it, however far outside it lies. -/
theorem texelOffset_of_pixels {size : Size} (h : size.isEmpty = false) (p : TexPoint α) :
    ∃ x y, (x < size.width.toNat ∧ y < size.height.toNat) ∧
      texelOffset size p = .ok (y * size.width.toNat + x) := by
  obtain ⟨hw, hh⟩ := Size.isEmpty_eq_false_iff.mp h
  obtain ⟨x, hx, hlt⟩ := texelIndex_of_pos p.u hw
  obtain ⟨y, hy, hlt'⟩ := texelIndex_of_pos p.v hh
  refine ⟨x, y, ⟨hlt, hlt'⟩, ?_⟩
  unfold texelOffset
  rw [hx]
  dsimp only
  rw [hy]

theorem texelOffset_of_isEmpty {size : Size} (h : size.isEmpty = true) (p : TexPoint α) :
    texelOffset size p = .error .emptyTexture := by
  have hside : size.width = 0 ∨ size.height = 0 := by
    unfold Size.isEmpty at h
    rwa [Bool.or_eq_true, decide_eq_true_eq, decide_eq_true_eq] at h
  unfold texelOffset
  by_cases hw : size.width = 0
  · unfold texelIndex
    rw [if_pos hw]
  · unfold texelIndex
    rw [if_neg hw, if_pos (hside.resolve_left hw)]

theorem half_pos {side : UInt32} (h : 0 < side.toNat) : 0 < (Subsampling.half side).toNat := by
  have htwo : (2 : UInt32).toNat = 2 := rfl
  unfold Subsampling.half
  rw [UInt32.toNat_add, UInt32.toNat_div, UInt32.toNat_mod, htwo]
  have hlt := side.toNat_lt
  omega

/-- The color planes of a picture with pixels have pixels. -/
theorem chromaSize_of_pixels {luma : Size} (h : luma.isEmpty = false)
    (subsampling : Subsampling) : (subsampling.chromaSize luma).isEmpty = false := by
  rw [Size.isEmpty_eq_false_iff] at h ⊢
  cases subsampling with
  | yuv420 => exact ⟨half_pos h.1, half_pos h.2⟩
  | yuv422 => exact ⟨half_pos h.1, h.2⟩
  | yuv444 => exact h

/-! ## The sample at a point -/

namespace PlaneTexture

/-- A plane with a byte for each pixel has a sample at every point. -/
theorem sample_of_pixels {t : PlaneTexture} (h : t.size.isEmpty = false)
    (hsize : t.samples.size = t.size.area) (p : TexPoint α) : ∃ level, t.sample p = .ok level := by
  obtain ⟨x, y, ⟨hx, hy⟩, hoffset⟩ := texelOffset_of_pixels h p
  have hlt : y * t.size.width.toNat + x < t.samples.size := by
    rw [hsize, Size.area, Nat.mul_comm t.size.width.toNat]
    exact place_lt hx hy
  unfold sample
  rw [hoffset]
  exact ⟨_, dif_pos hlt⟩

end PlaneTexture

namespace Texture

variable {t : Texture} {source : Source}

/-- A texture of a source with pixels has a color at every point. -/
theorem sample_of_pixels (ht : t.Alike (.blank source)) (h : source.size.isEmpty = false)
    (p : TexPoint α) (opacity : α) : ∃ color, t.sample p opacity = .ok color := by
  cases hformat : source.format with
  | packed order =>
    obtain ⟨texels, rfl, hsize⟩ := shape_of_packed ht hformat
    obtain ⟨x, y, ⟨hx, hy⟩, hoffset⟩ := texelOffset_of_pixels h p
    have hlt : (y * source.size.width.toNat + x) * packedChannels + 3 < texels.size := by
      rw [hsize, Size.area, Nat.mul_comm source.size.width.toNat]
      exact place_lt (by decide) (place_lt hx hy)
    unfold sample
    dsimp only
    rw [hoffset]
    exact ⟨_, dif_pos hlt⟩
  | planar subsampling =>
    obtain ⟨y, u, v, rfl, hy, hu, hv⟩ := shape_of_planar ht hformat
    have hchroma := chromaSize_of_pixels h subsampling
    obtain ⟨luma, hluma⟩ : ∃ level, (⟨source.size, y⟩ : PlaneTexture).sample p = .ok level :=
      PlaneTexture.sample_of_pixels h hy p
    obtain ⟨blue, hblue⟩ : ∃ level,
        (⟨subsampling.chromaSize source.size, u⟩ : PlaneTexture).sample p = .ok level :=
      PlaneTexture.sample_of_pixels hchroma hu p
    obtain ⟨red, hred⟩ : ∃ level,
        (⟨subsampling.chromaSize source.size, v⟩ : PlaneTexture).sample p = .ok level :=
      PlaneTexture.sample_of_pixels hchroma hv p
    unfold sample
    dsimp only
    rw [hluma]
    dsimp only
    rw [hblue]
    dsimp only
    rw [hred]
    exact ⟨_, rfl⟩

/-- A texture of a source without pixels has no color anywhere. -/
theorem sample_of_isEmpty (ht : t.Alike (.blank source)) (h : source.size.isEmpty = true)
    (p : TexPoint α) (opacity : α) : t.sample p opacity = .error .emptyTexture := by
  have hoffset := texelOffset_of_isEmpty h p
  unfold sample
  cases hformat : source.format with
  | packed order =>
    obtain ⟨texels, rfl, _⟩ := shape_of_packed ht hformat
    dsimp only
    rw [hoffset]
  | planar subsampling =>
    obtain ⟨y, u, v, rfl, _⟩ := shape_of_planar ht hformat
    unfold PlaneTexture.sample
    dsimp only
    rw [hoffset]

end Texture

end PictureInPicture
