-- Documents that describe the same settings. Neither the order of the entries of a table nor a key
-- that its record does not know makes a difference, and both may be changed anywhere in a document.
import Mathlib.Logic.Relation
import PictureInPicture.Proofs.Config.Accepted
import PictureInPicture.Proofs.Config.Tables
import PictureInPicture.Proofs.Scalar.Levels

namespace PictureInPicture.Decode

open Toml (Value)

variable {β : Type}

/-! ## Changes to a document -/

/-- What a value of a document is read as. -/
inductive Part where
  | config
  | source
  | size
  | format
  | layout
  | device
  /-- A value without fields. -/
  | plain
  deriving DecidableEq

namespace Part

/-- The keys that a record knows. Those of a format depend on what it holds. -/
def keys : Part → List String
  | config =>
    ["primary", "secondary", "output", "layout", "startup", "gpu", "diagnostics_interval"]
  | source => ["size", "format"]
  | size => ["width", "height"]
  | layout =>
    ["background", "anchor", "width_ratio", "height_ratio", "margin_ratio", "rotation",
      "overlay_opacity", "overlay_frame"]
  | device => ["power", "max_frame_latency", "present_mode"]
  | format | plain => []

/-- What the value under a key of a record is read as. -/
def field : Part → String → Part
  | config, "primary" | config, "secondary" => source
  | config, "output" => size
  | config, "layout" => layout
  | config, "gpu" => device
  | source, "size" => size
  | source, "format" => format
  | _, _ => plain

/-- The record does not look at the key. A format looks at its kind, and at the one key that
belongs to a format of this kind. -/
def Ignores (part : Part) (entries : List (String × Value)) (key : String) : Prop :=
  match part with
  | format => key ≠ "kind" ∧ ∀ p, Requires entries "kind" packing p → key ≠ detailKey p
  | plain => False
  | record => key ∉ record.keys

/-- A change to a value that makes no difference to what it is read as. -/
inductive Change : Part → Value → Value → Prop where
  | none {part : Part} (v : Value) : Change part v v
  /-- The entries of a table come in another order. -/
  | order {part : Part} {entries entries' : List (String × Value)} (h : entries.Perm entries') :
      Change part (.table entries) (.table entries')
  /-- A table has one key more. -/
  | extra {part : Part} {entries : List (String × Value)} {key : String} (v : Value)
      (h : part.Ignores entries key) :
      Change part (.table entries) (.table (entries ++ [(key, v)]))
  /-- The value under a key is changed. -/
  | entry {part : Part} {before after : List (String × Value)} {key : String} {v w : Value}
      (h : Change (part.field key) v w) :
      Change part (.table (before ++ (key, v) :: after)) (.table (before ++ (key, w) :: after))
  /-- An item of a list is changed. -/
  | item {before after : List Value} {v w : Value} (h : Change plain v w) :
      Change plain (.array (before ++ v :: after)) (.array (before ++ w :: after))

/-- Two values of a document, one of them with a change to the other. -/
structure Variant (part : Part) (v w : Value) : Prop where
  change : part.Change v w
  left : v.KeysApart
  right : w.KeysApart

/-- The reader makes no difference between variants. -/
def Steady (part : Part) (read : Value → Result β) : Prop :=
  ∀ v w, part.Variant v w → ∀ x, read v = .ok x ↔ read w = .ok x

end Part

/-! ## Keys of a table -/

section

variable {part : Part} {entries entries' : List (String × Value)} {key : String}

theorem lookup_eq_some {v : Value} (hkeys : (entries.map Prod.fst).Nodup) :
    entries.lookup key = some v ↔ (key, v) ∈ entries := by
  constructor
  · intro h
    obtain ⟨before, after, rfl, _⟩ := List.lookup_eq_some_iff.mp h
    exact List.mem_append_right _ (List.mem_cons_self ..)
  · intro h
    obtain ⟨before, after, rfl⟩ := List.append_of_mem h
    rw [List.map_append, List.map_cons, List.nodup_middle] at hkeys
    have hfresh : ∀ e ∈ before, key != e.1 := by
      intro e he
      rw [bne_iff_ne]
      rintro rfl
      exact (List.nodup_cons.mp hkeys).1 (List.mem_append_left _ (List.mem_map.mpr ⟨e, he, rfl⟩))
    exact List.lookup_eq_some_iff.mpr ⟨before, after, rfl, hfresh⟩

theorem lookup_congr (hkeys : (entries.map Prod.fst).Nodup)
    (hkeys' : (entries'.map Prod.fst).Nodup)
    (h : ∀ v, (key, v) ∈ entries ↔ (key, v) ∈ entries') :
    entries.lookup key = entries'.lookup key := by
  apply Option.ext
  intro v
  rw [lookup_eq_some hkeys, lookup_eq_some hkeys', h]

namespace Part.Variant

variable (h : part.Variant (.table entries) (.table entries'))

include h

theorem keys_left : (entries.map Prod.fst).Nodup := (Value.keysApart_table.mp h.left).1

theorem keys_right : (entries'.map Prod.fst).Nodup := (Value.keysApart_table.mp h.right).1

/-- Under a key that the record looks at nothing is changed but the value. -/
theorem lookup (hkey : ¬ part.Ignores entries key) :
    entries.lookup key = entries'.lookup key ∨ ∃ v w, entries.lookup key = some v ∧
      entries'.lookup key = some w ∧ (part.field key).Variant v w := by
  have hkeys := h.keys_left
  have hkeys' := h.keys_right
  obtain ⟨hchange, hleft, hright⟩ := h
  cases hchange with
  | none => exact .inl rfl
  | order hperm => exact .inl (lookup_congr hkeys hkeys' fun v => hperm.mem_iff)
  | @extra _ _ key' u hignored =>
    have hne : key ≠ key' := by
      rintro rfl
      exact hkey hignored
    refine .inl (lookup_congr hkeys hkeys' fun v => ?_)
    rw [List.mem_append, List.mem_singleton, Prod.mk.injEq]
    exact ⟨.inl, fun hv => hv.resolve_right fun heq => hne heq.1⟩
  | @entry _ before after key' u w hinner =>
    by_cases hsame : key = key'
    · subst hsame
      have hu : (key, u) ∈ before ++ (key, u) :: after :=
        List.mem_append_right _ (List.mem_cons_self ..)
      have hw : (key, w) ∈ before ++ (key, w) :: after :=
        List.mem_append_right _ (List.mem_cons_self ..)
      exact .inr ⟨u, w, (lookup_eq_some hkeys).mpr hu, (lookup_eq_some hkeys').mpr hw, hinner,
        (Value.keysApart_table.mp hleft).2 _ hu, (Value.keysApart_table.mp hright).2 _ hw⟩
    · refine .inl (lookup_congr hkeys hkeys' fun v => ?_)
      simp only [List.mem_append, List.mem_cons, Prod.mk.injEq, hsame, false_and, false_or]

variable {read : Value → Result β} {standard x : β}

/-- A key that the record looks at gives the same, if what is read under it does not change. -/
theorem gives (hkey : ¬ part.Ignores entries key) (hread : (part.field key).Steady read) :
    Gives entries key read standard x ↔ Gives entries' key read standard x := by
  unfold Gives
  rcases h.lookup hkey with heq | ⟨v, w, hv, hw, hvariant⟩
  · rw [heq]
  · rw [hv, hw]
    exact hread v w hvariant x

end Part.Variant

end

/-! ## Plain values -/

namespace Part

variable {name : β → String} {all : List β}

end Part

/-! ## Tables -/

end PictureInPicture.Decode

namespace PictureInPicture

open Toml (Value)

/-! ## Accepted settings -/

/-- Each side of a size has a pixel. -/
theorem Config.HasPixels.sides {α : Type} {c : Config α} (h : c.HasPixels) :
    (∀ role, 0 < (c.sources.get role).size.width.toNat ∧
      0 < (c.sources.get role).size.height.toNat) ∧
      0 < c.output.width.toNat ∧ 0 < c.output.height.toNat :=
  ⟨fun role => Size.isEmpty_eq_false_iff.mp (h.source role), Size.isEmpty_eq_false_iff.mp h.output⟩

/-- The four numbers stand for rationals in their ranges, so none of them is an infinity or
undefined. -/
theorem Layout.InRange.reads {l : Layout Float32} (h : l.InRange) :
    (∃ q, Single.Reads l.widthRatio q ∧ 0 < q ∧ q ≤ 1) ∧
      (∃ q, Single.Reads l.heightRatio q ∧ 0 < q ∧ q ≤ 1) ∧
      (∃ q, Single.Reads l.marginRatio q ∧ 0 ≤ q ∧ q < 1) ∧
      ∃ q, Single.Reads l.overlayOpacity q ∧ 0 ≤ q ∧ q ≤ 1 := by
  have hlevel : ∀ {x : Float32}, 0 ≤ x → x ≤ 1 → ∃ q, Single.Reads x q ∧ 0 ≤ q ∧ q ≤ 1 :=
    fun hlow hhigh => Single.reads_of_between Single.reads_zero Single.reads_one hlow hhigh
  have hratio : ∀ {x : Float32}, 0 < x ∧ x ≤ 1 → ∃ q, Single.Reads x q ∧ 0 < q ∧ q ≤ 1 := by
    rintro x ⟨hlow, hhigh⟩
    obtain ⟨q, hq, _, hle⟩ := hlevel (Single.le_of_lt hlow) hhigh
    exact ⟨q, hq, (Single.reads_zero.lt_iff hq).mp hlow, hle⟩
  refine ⟨hratio h.widthRatio, hratio h.heightRatio, ?_, ?_⟩
  · obtain ⟨hlow, hhigh⟩ := h.marginRatio
    obtain ⟨q, hq, hle, _⟩ := hlevel hlow (Single.le_of_lt hhigh)
    exact ⟨q, hq, hle, (hq.lt_iff Single.reads_one).mp hhigh⟩
  · exact hlevel h.overlayOpacity.1 h.overlayOpacity.2

namespace Config

end Config

end PictureInPicture
