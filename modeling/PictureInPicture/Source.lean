-- The two sources of a composite: their roles, and the pictures that each one declares
-- to deliver.
import PictureInPicture.Size

namespace PictureInPicture

/-! ## The two roles -/

/-- One of the two producers. Each runs on a clock of its own. -/
inductive Role where
  | primary
  | secondary
  deriving DecidableEq, Repr, Inhabited

namespace Role

def other : Role → Role
  | primary => secondary
  | secondary => primary

def index : Role → Nat
  | primary => 0
  | secondary => 1

def name : Role → String
  | primary => "primary"
  | secondary => "secondary"

def all : List Role := [primary, secondary]

end Role

/-- One value for each of the two roles. -/
structure Both (β : Type) where
  primary : β
  secondary : β
  deriving DecidableEq, Repr, Inhabited

namespace Both

variable {β γ : Type}

def get (p : Both β) : Role → β
  | .primary => p.primary
  | .secondary => p.secondary

def set (p : Both β) (role : Role) (x : β) : Both β :=
  match role with
  | .primary => { p with primary := x }
  | .secondary => { p with secondary := x }

def modify (p : Both β) (role : Role) (f : β → β) : Both β := p.set role (f (p.get role))

def map (f : β → γ) (p : Both β) : Both γ := ⟨f p.primary, f p.secondary⟩

/-- The same value for both roles. -/
def twice (x : β) : Both β := ⟨x, x⟩

def toList (p : Both β) : List β := [p.primary, p.secondary]

@[simp] theorem get_set_self (p : Both β) (r : Role) (x : β) : (p.set r x).get r = x := by
  cases r <;> rfl

theorem get_set (p : Both β) (r r' : Role) (x : β) :
    (p.set r x).get r' = if r = r' then x else p.get r' := by
  cases r <;> cases r' <;> rfl

theorem get_modify (p : Both β) (r r' : Role) (f : β → β) :
    (p.modify r f).get r' = if r = r' then f (p.get r) else p.get r' := get_set p r r' _

@[simp] theorem get_map (f : β → γ) (p : Both β) (r : Role) : (p.map f).get r = f (p.get r) := by
  cases r <;> rfl

@[simp] theorem get_twice (x : β) (r : Role) : (twice x).get r = x := by
  cases r <;> rfl

theorem ext_get {p q : Both β} (h : ∀ r, p.get r = q.get r) : p = q := by
  cases p
  cases q
  have h₁ := h .primary
  have h₂ := h .secondary
  simp only [get] at h₁ h₂
  rw [h₁, h₂]

end Both

/-! ## Pictures -/

/-- The order of the color bytes of a packed pixel. -/
inductive ChannelOrder where
  | rgba
  | bgra
  deriving DecidableEq, Repr, Inhabited

namespace ChannelOrder

def name : ChannelOrder → String
  | rgba => "rgba"
  | bgra => "bgra"

def all : List ChannelOrder := [rgba, bgra]

end ChannelOrder

/-- How the samples of a picture lie in memory: four bytes for each pixel, or one plane
for each of luma and the two color differences. -/
inductive Packing where
  | packed
  | planar
  deriving DecidableEq, Repr

namespace Packing

def name : Packing → String
  | packed => "packed"
  | planar => "planar"

def all : List Packing := [packed, planar]

end Packing

/-- The pixel format that a source declares. -/
inductive PixelFormat where
  | packed (order : ChannelOrder)
  | planar (subsampling : Subsampling)
  deriving DecidableEq, Repr

namespace PixelFormat

instance : Inhabited PixelFormat := ⟨.packed .rgba⟩

def packing : PixelFormat → Packing
  | packed _ => .packed
  | planar _ => .planar

/-- The channel order of a packed format, or the subsampling of a planar one. -/
def detail : PixelFormat → String
  | packed order => order.name
  | planar subsampling => subsampling.name

end PixelFormat

/-- The size and the pixel format that one producer declares. -/
structure Source where
  size : Size
  format : PixelFormat
  deriving DecidableEq, Repr

/-- The number of bytes of a packed pixel. -/
def packedChannels : Nat := 4

end PictureInPicture
