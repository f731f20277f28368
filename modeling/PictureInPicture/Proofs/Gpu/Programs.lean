-- How far the compiling of the programs gets. A device that takes their texts compiles all of
-- them, and its pipelines can draw to whatever surface a format was chosen for.
import Mathlib.Data.List.TakeWhile
import PictureInPicture.Gpu.Backend
import PictureInPicture.Proofs.Gpu.Negotiation

namespace PictureInPicture.Gpu

variable {check : Compiler} {format : TextureFormat}

/-- The fault of a program whose text a device refuses. -/
def Compiler.fault? (check : Compiler) (program : Program) : Option Fault :=
  (check program program.source).map (.shaderCompilation program.name)

/-- The device takes the texts of all the programs. -/
def Compiler.Complete (check : Compiler) : Prop := ∀ program, check program program.source = none

theorem complete_iff : check.Complete ↔ ∀ program ∈ Program.all, check.fault? program = none := by
  unfold Compiler.Complete Compiler.fault?
  constructor
  · intro h program _
    rw [h, Option.map_none]
  · intro h program
    have hall : program ∈ Program.all := by cases program <;> decide
    exact Option.map_eq_none_iff.mp (h program hall)

/-- The programs before the first one that is refused are compiled, and its fault is the end. -/
theorem compileAll_eq (check : Compiler) (programs : List Program) :
    compileAll check programs =
      ((programs.takeWhile fun p => (check.fault? p).isNone).map .programCompiled,
        match programs.findSome? check.fault? with
        | some fault => .error fault
        | none => .ok ()) := by
  induction programs with
  | nil => rfl
  | cons program programs ih =>
    unfold compileAll compile
    rw [List.takeWhile_cons, List.findSome?_cons, ih]
    unfold Compiler.fault?
    cases check program program.source <;> rfl

/-- Pipelines are made if and only if the device takes all the programs and can draw to the
format. -/
theorem compilePipelines_eq_ok :
    (compilePipelines check format).2 = .ok () ↔ check.Complete ∧ format.isRenderable = true := by
  rw [complete_iff, ← List.findSome?_eq_none_iff]
  unfold compilePipelines
  rw [compileAll_eq]
  cases Program.all.findSome? check.fault? with
  | some fault =>
    constructor
    · nofun
    · rintro ⟨h, _⟩
      cases h
  | none =>
    dsimp only
    split
    · rename_i hformat
      exact ⟨fun _ => ⟨rfl, hformat⟩, fun _ => rfl⟩
    · rename_i hformat
      exact ⟨nofun, fun h => absurd h.2 hformat⟩

/-- The log of a device that takes all the programs, whatever it draws to. -/
theorem notices_of_complete (h : check.Complete) :
    (compilePipelines check format).1 = Program.all.map .programCompiled := by
  have hnone := complete_iff.mp h
  have hall : Program.all.takeWhile (fun p => (check.fault? p).isNone) = Program.all := by
    rw [List.takeWhile_eq_self_iff]
    intro program hprogram
    rw [hnone program hprogram, Option.isNone_none]
  unfold compilePipelines
  rw [compileAll_eq, hall, List.findSome?_eq_none_iff.mpr hnone]

theorem isRenderable_of_shown : ∀ f ∈ shownFormats, f.linear.isRenderable = true := by
  decide

/-- A format that is chosen of what a surface offers can be drawn to in its linear form, by every
device that takes the programs. -/
theorem pipelines_are_made_for_a_chosen_format {formats : List TextureFormat}
    {notices : List Notice} (hformat : selectFormat formats = .ok (format, notices))
    (h : check.Complete) (size : Size) :
    compilePipelines check (SurfaceConfig.of size format).renderFormat =
      (Program.all.map .programCompiled, .ok ()) := by
  have hshown := (chosen_of_selectFormat hformat).1.shown
  refine Prod.ext (notices_of_complete h) ?_
  exact compilePipelines_eq_ok.mpr ⟨h, isRenderable_of_shown format hshown⟩

/-- A device that is set up tells of its surface and of the compiling of the programs. -/
theorem create_effects {α δ : Type} (h : check.Complete) (c : Config α) (device : δ) :
    let surface := SurfaceConfig.of c.output State.initialFormat
    (State.create c device).2 =
        .surface (.configure surface) ::
          (compilePipelines check surface.renderFormat).1.map .notice ∧
      (compilePipelines check surface.renderFormat).2 = .ok () := by
  intro surface
  rw [notices_of_complete h, List.map_map]
  exact ⟨rfl, compilePipelines_eq_ok.mpr ⟨h, rfl⟩⟩

theorem complete_scripted : Scripted.compiler.Complete := fun _ => if_pos rfl

end PictureInPicture.Gpu
