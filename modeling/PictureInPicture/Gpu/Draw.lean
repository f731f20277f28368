-- The draws of the graphics device. Each step of drawing has a slot with its vertices and
-- its uniform values. All slots are written before the first draw is executed.
import PictureInPicture.Notice
import PictureInPicture.Plan

namespace PictureInPicture.Gpu

/-! ## Vertices and uniform values -/

/-- A corner with its texture point. -/
structure Vertex (α : Type) where
  position : Point α
  uv : TexPoint α
  deriving Repr, DecidableEq

section

variable {α : Type} [Scalar α]

/-- The triangle strip of a textured rectangle. -/
def quadVertices (q : Quad α) : List (Vertex α) := q.rect.corners.zipWith Vertex.mk q.uvs

/-- A corner without a texture. -/
def plainVertex (p : Point α) : Vertex α := ⟨p, ⟨0, 0⟩⟩

/-- The triangle strip of a rectangle of one color. -/
def fillVertices (r : Rect α) : List (Vertex α) := r.corners.map plainVertex

/-- The line around a rectangle. -/
def outlineVertices (r : Rect α) : List (Vertex α) := r.outline.map plainVertex

/-- The room for vertices in a slot. A closed outline needs all of it. -/
def maxVertices : Nat := 5

/-- The values that are the same for all pixels of a draw. -/
structure Uniforms (α : Type) where
  color : Color α
  /-- The opacity, and three values that nothing reads. -/
  params : Color α
  deriving Repr, DecidableEq

def Uniforms.textured (opacity : α) : Uniforms α := ⟨⟨0, 0, 0, 0⟩, ⟨opacity, 0, 0, 0⟩⟩

def Uniforms.plain (color : Color α) : Uniforms α := ⟨color, ⟨1, 0, 0, 0⟩⟩

end

/-! ## Slots and pipelines -/

/-- The memory for one kind of draw. -/
inductive Slot where
  | layer (role : Role)
  | backing
  | border
  deriving DecidableEq, Repr

namespace Slot

def index : Slot → Nat
  | layer role => role.index
  | backing => 2
  | border => 3

def label : Slot → String
  | layer role => role.name ++ " layer"
  | backing => "overlay backing"
  | border => "overlay border"

end Slot

/-- How vertices are turned into pixels. The first two sample a source. -/
inductive Pipeline where
  | textured (packing : Packing)
  | fill
  | outline
  deriving DecidableEq, Repr

namespace Pipeline

def name : Pipeline → String
  | textured packing => packing.name
  | fill => "fill"
  | outline => "outline"

end Pipeline

/-! ## Draws -/

/-- One draw: its slot, its pipeline, the source that it samples, and its vertices. -/
structure Draw where
  slot : Slot
  pipeline : Pipeline
  source : Option Role
  vertexCount : Nat
  deriving DecidableEq, Repr

/-- What is written into a slot. -/
structure Staged (α : Type) where
  slot : Slot
  vertices : List (Vertex α)
  uniforms : Uniforms α
  deriving Repr, DecidableEq

section

variable {α : Type} [Scalar α]

def Draw.ofOp : DrawOp α → Draw
  | .fill _ _ => ⟨.backing, .fill, none, 4⟩
  | .outline _ _ => ⟨.border, .outline, none, 5⟩
  | .layer layer => ⟨.layer layer.role, .textured layer.format.packing, some layer.role, 4⟩

def Staged.ofOp : DrawOp α → Staged α
  | .fill rect color => ⟨.backing, fillVertices rect, .plain color⟩
  | .outline rect color => ⟨.border, outlineVertices rect, .plain color⟩
  | .layer layer => ⟨.layer layer.role, quadVertices layer.quad, .textured layer.opacity⟩

/-- What a frame writes into the slots, in order, and the draws that read them. -/
structure Prepared (α : Type) where
  writes : List (Staged α)
  draws : List Draw
  deriving Repr, DecidableEq

def prepare (ops : List (DrawOp α)) : Prepared α := ⟨ops.map .ofOp, ops.map .ofOp⟩

/-- What a slot holds once everything is written: the last write to it. -/
def Prepared.content? (p : Prepared α) (slot : Slot) : Option (Staged α) :=
  p.writes.reverse.find? (·.slot = slot)

end

end PictureInPicture.Gpu
