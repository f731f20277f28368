-- The pass that executes the draws of a frame. A slot has a memory for vertices and one for uniform
-- values, and a source has a group of its sampler and its textures. The memories are written before
-- the first draw is executed, so a draw reads what was written to its slot last.
import PictureInPicture.Gpu.Draw
import PictureInPicture.Gpu.Texture

namespace PictureInPicture.Gpu

/-! ## The memories of the slots -/

/-- The memory of a slot. A draw reads the first of the vertices, and all uniform values. -/
structure SlotMemory (α : Type) where
  vertices : List (Vertex α)
  uniforms : Uniforms α
  deriving Repr, DecidableEq

/-- The memory of every slot. -/
abbrev Memories (α : Type) := Slot → SlotMemory α

section

variable {α : Type}

/-- The memory of a slot after a write. Vertices behind those that are written stay. -/
def SlotMemory.write (m : SlotMemory α) (w : Staged α) : SlotMemory α :=
  ⟨w.vertices ++ m.vertices.drop w.vertices.length, w.uniforms⟩

def Memories.write (m : Memories α) (w : Staged α) : Memories α := fun slot =>
  if w.slot = slot then (m slot).write w else m slot

/-- The memories after all writes of a frame, in order. -/
def Memories.writeAll (m : Memories α) (writes : List (Staged α)) : Memories α :=
  writes.foldl write m

end

/-! ## Groups of resources -/

/-- What can stand in a group. -/
inductive ResourceKind where
  | uniforms
  | sampler
  | texture
  deriving DecidableEq, Repr

/-- One place of a group, and what stands there. -/
structure LayoutEntry where
  binding : Nat
  kind : ResourceKind
  deriving DecidableEq, Repr

/-- The places of a group, in order. -/
abbrev GroupLayout := List LayoutEntry

/-- The layout of the group of a slot. -/
def layerLayout : GroupLayout := [⟨0, .uniforms⟩]

/-- A sampler, and then a texture for each plane. -/
def sourceLayout (planes : Nat) : GroupLayout :=
  ⟨0, .sampler⟩ :: (List.range' 1 planes).map (⟨·, .texture⟩)

/-- The layout of the group of a source. -/
def groupLayout : Packing → GroupLayout
  | .packed => sourceLayout 1
  | .planar => sourceLayout 3

/-- The layouts of the groups that the draws of a pipeline bind. -/
def Pipeline.layouts : Pipeline → List GroupLayout
  | textured packing => [layerLayout, groupLayout packing]
  | fill => [layerLayout]
  | outline => [layerLayout]

/-- Something that a draw reads besides its vertices. -/
inductive Resource where
  | uniforms (slot : Slot)
  | sampler
  | texture (texture : PlaneTexture)
  deriving DecidableEq, Repr

def Resource.kind : Resource → ResourceKind
  | uniforms _ => .uniforms
  | sampler => .sampler
  | texture _ => .texture

/-- Resources at their places, and the layout that the group was made with. -/
structure BindGroup where
  layout : GroupLayout
  resources : List (Resource × Nat)
  deriving DecidableEq, Repr

/-- The group of the uniform values of a slot. -/
def Slot.group (slot : Slot) : BindGroup := ⟨layerLayout, [(.uniforms slot, 0)]⟩

/-- The group of a sampler and of the textures of a source. -/
def SourceTextures.group (t : SourceTextures) : BindGroup :=
  ⟨groupLayout t.packing, (.sampler :: t.textures.map .texture).zipIdx⟩

/-! ## The pass -/

/-- A draw when it is executed: its pipeline, what it binds, and what it reads. -/
structure Executed (α : Type) where
  pipeline : Pipeline
  groups : List BindGroup
  vertices : List (Vertex α)
  uniforms : Uniforms α
  deriving Repr, DecidableEq

variable {α : Type}

/-- A draw binds the group of its slot, and that of the source that it samples. -/
def Draw.groups (draw : Draw) (sources : Both SourceTextures) : List BindGroup :=
  draw.slot.group :: (draw.source.map fun role => (sources.get role).group).toList

def Draw.execute (draw : Draw) (sources : Both SourceTextures) (m : Memories α) : Executed α where
  pipeline := draw.pipeline
  groups := draw.groups sources
  vertices := (m draw.slot).vertices.take draw.vertexCount
  uniforms := (m draw.slot).uniforms

/-- The draws of a frame, in order. All of its writes are made before the first of them. -/
def Prepared.execute (p : Prepared α) (sources : Both SourceTextures) (m : Memories α) :
    List (Executed α) :=
  p.draws.map fun draw => draw.execute sources (m.writeAll p.writes)

end PictureInPicture.Gpu
