-- What a table gives to a record. Its entries are read one after the other into what is known so
-- far. If no key stands there twice, each field has what its own key gives, whatever the order is
-- and whatever else the table holds.
import PictureInPicture.Proofs.Config.RoundTrip
import PictureInPicture.Proofs.Toml.Distinct

namespace PictureInPicture.Decode

open Toml (Value)

variable {β σ : Type}

/-! ## Keys -/

section

variable {entries : List (String × Value)} {read : Value → Result β} {key key' : String}
  {v : Value} {standard x : β}

/-- What a table gives for a key: the value under it as it is read, or else the standard. -/
def Gives (entries : List (String × Value)) (key : String) (read : Value → Result β)
    (standard x : β) : Prop :=
  match entries.lookup key with
  | some v => read v = .ok x
  | none => x = standard

/-- The key is there, and this is its value as it is read. -/
def Requires (entries : List (String × Value)) (key : String) (read : Value → Result β) (x : β) :
    Prop :=
  ∃ v, entries.lookup key = some v ∧ read v = .ok x

end

/-! ## Records of slots -/

/-- A field of a record: the key it stands under, how its value is read, and its place. -/
structure Slot (σ : Type) where
  {Content : Type}
  key : String
  read : Value → Result Content
  get : σ → Content
  set : Content → σ → σ

/-- Reads the value under a key into the slot of that key, if there is one. -/
def fieldOf (slots : List (Slot σ)) (key : String) (v : Value) (s : σ) : Result σ :=
  match slots.find? (key = ·.key) with
  | some slot => return slot.set (← slot.read v) s
  | none => return s

/-- A key that no slot has leaves the record as it is. -/
theorem fieldOf_of_strange {slots : List (Slot σ)} {key : String}
    (h : ∀ slot ∈ slots, key ≠ slot.key) (v : Value) (s : σ) :
    fieldOf slots key v s = .ok s := by
  have hfind : slots.find? (key = ·.key) = none := by
    apply List.find?_eq_none.mpr
    intro slot hslot heq
    exact h slot hslot (of_decide_eq_true heq)
  unfold fieldOf
  rw [hfind]
  rfl

section

variable {slots : List (Slot σ)} {entries : List (String × Value)} {start s : σ}

end

/-! ## The records of the settings -/

def sizeSlots : List (Slot (Option UInt32 × Option UInt32)) :=
  [{ key := "width", read := fun v => some <$> uint32 v, get := (·.1), set := fun x s => (x, s.2) },
    { key := "height", read := fun v => some <$> uint32 v, get := (·.2),
      set := fun x s => (s.1, x) }]

/-- The sides that the entries of a size give. -/
def sides : Value → Result (Option UInt32 × Option UInt32) :=
  record ["width", "height"] (fieldOf sizeSlots) (none, none)

theorem size_eq (v : Value) :
    size v = do
      let s ← sides v
      return ⟨← required v "width" s.1, ← required v "height" s.2⟩ := by
  unfold size sides
  congr 2
  funext key x ⟨width, height⟩
  dsimp only
  split
  · exact (bind_map_left some (uint32 x) fun y => pure (y, height)).symm
  · exact (bind_map_left some (uint32 x) fun y => pure (width, y)).symm
  · symm
    apply fieldOf_of_strange
    simp only [sizeSlots, List.forall_mem_cons, List.not_mem_nil, false_implies, implies_true,
      and_true]
    and_intros <;> assumption

section

variable {entries : List (String × Value)}

end

end PictureInPicture.Decode
