-- No table of a document has two entries under one key. The parts of a document that change a
-- table look the key up first: what is found is changed in its place, and only what is not found is
-- added.
import Mathlib.Data.List.Nodup
import Mathlib.Data.Option.Basic
import PictureInPicture.Toml.Document

namespace PictureInPicture.Toml

/-! ## Values -/

/-- No two entries of a table have the same key, in the value or in any value inside it. -/
inductive Value.KeysApart : Value → Prop where
  | text (s : String) : KeysApart (.text s)
  | integer (n : Int) : KeysApart (.integer n)
  | float (x : Float) : KeysApart (.float x)
  | boolean (b : Bool) : KeysApart (.boolean b)
  | moment : KeysApart .moment
  | array {items : List Value} (h : ∀ v ∈ items, KeysApart v) : KeysApart (.array items)
  | table {entries : List (String × Value)} (apart : (entries.map Prod.fst).Nodup)
      (h : ∀ e ∈ entries, KeysApart e.2) : KeysApart (.table entries)

attribute [simp] Value.KeysApart.text Value.KeysApart.integer Value.KeysApart.float
  Value.KeysApart.boolean Value.KeysApart.moment

@[simp] theorem Value.keysApart_table {entries : List (String × Value)} :
    (table entries).KeysApart ↔
      (entries.map Prod.fst).Nodup ∧ ∀ e ∈ entries, e.2.KeysApart := by
  constructor
  · rintro (_ | _ | _ | _ | _ | _ | ⟨apart, h⟩)
    exact ⟨apart, h⟩
  · rintro ⟨apart, h⟩
    exact .table apart h

@[simp] theorem Value.keysApart_array {items : List Value} :
    (array items).KeysApart ↔ ∀ v ∈ items, v.KeysApart := by
  constructor
  · rintro (_ | _ | _ | _ | _ | h)
    exact h
  · exact .array

/-! ## Tables while they are read -/

/-- No two entries have the same key, in what stands there or in any table inside it. -/
inductive Entry.KeysApart : Entry → Prop where
  | value {v : Value} (h : v.KeysApart) : KeysApart (.value v)
  | table {origin : Origin} {entries : Tree} (apart : (entries.map Prod.fst).Nodup)
      (h : ∀ e ∈ entries, KeysApart e.2) : KeysApart (.table origin entries)
  | tables {elements : List Tree} (apart : ∀ t ∈ elements, (t.map Prod.fst).Nodup)
      (h : ∀ t ∈ elements, ∀ e ∈ t, KeysApart e.2) : KeysApart (.tables elements)

namespace Tree

/-- No two entries of the table have the same key, and none of a table inside it. -/
structure KeysApart (t : Tree) : Prop where
  apart : (t.map Prod.fst).Nodup
  entries : ∀ e ∈ t, e.2.KeysApart

theorem keysApart_nil : KeysApart [] := ⟨List.nodup_nil, nofun⟩

theorem keysApart_of_table {origin : Origin} {t : Tree} :
    (Entry.table origin t).KeysApart ↔ t.KeysApart := by
  constructor
  · rintro (_ | ⟨apart, h⟩)
    exact ⟨apart, h⟩
  · rintro ⟨apart, h⟩
    exact .table apart h

theorem keysApart_of_tables {elements : List Tree} :
    (Entry.tables elements).KeysApart ↔ ∀ t ∈ elements, t.KeysApart := by
  constructor
  · rintro (_ | _ | ⟨apart, h⟩) t ht
    exact ⟨apart t ht, h t ht⟩
  · intro h
    exact .tables (fun t ht => (h t ht).apart) fun t ht => (h t ht).entries

variable {t t' : Tree} {key : String} {e : Entry}

theorem not_mem_of_lookup (h : t.lookup key = none) : key ∉ t.map Prod.fst := by
  rintro hmem
  obtain ⟨entry, hentry, rfl⟩ := List.mem_map.mp hmem
  have hne := List.lookup_eq_none_iff.mp h entry hentry
  simp at hne

theorem KeysApart.of_lookup (ht : t.KeysApart) (h : t.lookup key = some e) : e.KeysApart := by
  obtain ⟨before, after, rfl, _⟩ := List.lookup_eq_some_iff.mp h
  exact ht.entries (key, e) (List.mem_append_right _ (List.mem_cons_self ..))

/-- An entry under a new key. -/
theorem KeysApart.append (ht : t.KeysApart) (hkey : key ∉ t.map Prod.fst) (he : e.KeysApart) :
    KeysApart (t ++ [(key, e)]) := by
  refine ⟨?_, ?_⟩
  · rw [List.map_append, List.map_cons, List.map_nil, List.nodup_append_comm]
    exact List.nodup_cons.mpr ⟨hkey, ht.apart⟩
  · intro x hx
    rcases List.mem_append.mp hx with hx | hx
    · exact ht.entries x hx
    · cases List.mem_singleton.mp hx
      exact he

/-- An entry in the place of another one. -/
theorem KeysApart.replace (ht : t.KeysApart) (key : String) (he : e.KeysApart) :
    KeysApart (t.replace key e) := by
  have hkeys : (t.replace key e).map Prod.fst = t.map Prod.fst := by
    unfold Tree.replace
    rw [List.map_map]
    apply List.map_congr_left
    rintro ⟨k, x⟩ _
    dsimp only [Function.comp_apply]
    split <;> rfl
  refine ⟨hkeys ▸ ht.apart, ?_⟩
  intro x hx
  obtain ⟨⟨k, y⟩, hy, rfl⟩ := List.mem_map.mp hx
  dsimp only
  split
  · exact he
  · exact ht.entries (k, y) hy

theorem KeysApart.filter (ht : t.KeysApart) (keep : String × Entry → Bool) :
    KeysApart (List.filter keep t) :=
  ⟨ht.apart.sublist (List.filter_sublist.map Prod.fst),
    fun x hx => ht.entries x (List.mem_filter.mp hx).1⟩

/-- What is true of a change is true of following a path to it. -/
theorem KeysApart.descend {made : Origin} {change : Origin → Tree → Option Tree}
    (hchange : ∀ origin t t', t.KeysApart → change origin t = some t' → t'.KeysApart)
    (ht : t.KeysApart) {origin : Origin} {path : List String}
    (h : descend made change origin path t = some t') : t'.KeysApart := by
  induction path generalizing origin t t' with
  | nil => exact hchange origin t t' ht h
  | cons key path ih =>
    unfold Tree.descend at h
    split at h
    · rename_i hlookup
      obtain ⟨inner, hinner, heq⟩ := Option.bind_eq_some_iff.mp h
      cases heq
      have hentry := ih keysApart_nil hinner
      exact ht.append (not_mem_of_lookup hlookup) (keysApart_of_table.mpr hentry)
    · cases h
    · cases h
    · rename_i last before hlookup
      obtain ⟨inner, hinner, heq⟩ := Option.bind_eq_some_iff.mp h
      cases heq
      obtain ⟨hlast, hbefore⟩ :=
        List.forall_mem_cons.mp (keysApart_of_tables.mp (ht.of_lookup hlookup))
      have hentry := List.forall_mem_cons.mpr ⟨ih hlast hinner, hbefore⟩
      exact ht.replace key (keysApart_of_tables.mpr hentry)
    · rename_i origin' entries hlookup
      split at h
      · cases h
      · obtain ⟨inner, hinner, heq⟩ := Option.bind_eq_some_iff.mp h
        cases heq
        have hentry := ih (keysApart_of_table.mp (ht.of_lookup hlookup)) hinner
        exact ht.replace key (keysApart_of_table.mpr hentry)

theorem KeysApart.put {path : List String} {v : Value} {origin : Origin} (ht : t.KeysApart)
    (hv : v.KeysApart) (h : put path key v origin t = some t') : t'.KeysApart := by
  unfold Tree.put at h
  split at h
  · cases h
  · split at h
    · cases h
    · rename_i hnone
      cases h
      rw [Option.not_isSome_iff_eq_none] at hnone
      exact ht.append (not_mem_of_lookup hnone) (.value hv)

theorem KeysApart.insert {keys : List String} {v : Value} (ht : t.KeysApart) (hv : v.KeysApart)
    (h : insert keys v t = some t') : t'.KeysApart := by
  unfold Tree.insert at h
  split at h
  · cases h
  · exact ht.descend (fun _ _ _ ht => ht.put hv) h

theorem KeysApart.insertUnder {header keys : List String} {v : Value} (ht : t.KeysApart)
    (hv : v.KeysApart) (h : insertUnder header keys v t = some t') : t'.KeysApart :=
  ht.descend (fun _ _ _ ht => ht.insert hv) h

theorem KeysApart.openTable {header : List String} (ht : t.KeysApart)
    (h : openTable header t = some t') : t'.KeysApart := by
  unfold Tree.openTable at h
  split at h
  · cases h
  · rename_i key _
    refine ht.descend ?_ h
    intro _ t t' ht h
    split at h
    · rename_i hnone
      cases h
      exact ht.append (not_mem_of_lookup hnone) (keysApart_of_table.mpr keysApart_nil)
    · rename_i entries hlookup
      cases h
      have hentries := keysApart_of_table.mp (ht.of_lookup hlookup)
      refine (ht.filter _).append ?_ (keysApart_of_table.mpr hentries)
      intro hmem
      obtain ⟨entry, hentry, heq⟩ := List.mem_map.mp hmem
      exact of_decide_eq_true (List.mem_filter.mp hentry).2 heq
    · cases h

theorem KeysApart.openElement {header : List String} (ht : t.KeysApart)
    (h : openElement header t = some t') : t'.KeysApart := by
  unfold Tree.openElement at h
  split at h
  · cases h
  · rename_i key _
    refine ht.descend ?_ h
    intro _ t t' ht h
    split at h
    · rename_i hnone
      cases h
      have hone := List.forall_mem_singleton.mpr keysApart_nil
      exact ht.append (not_mem_of_lookup hnone) (keysApart_of_tables.mpr hone)
    · rename_i elements hlookup
      cases h
      have helements := keysApart_of_tables.mp (ht.of_lookup hlookup)
      have hnext := List.forall_mem_cons.mpr ⟨keysApart_nil, helements⟩
      exact ht.replace key (keysApart_of_tables.mpr hnext)
    · cases h

end Tree

/-! ## Finished tables -/

theorem valuesOf_eq_map (t : Tree) : valuesOf t = t.map fun e => (e.1, e.2.toValue) := by
  induction t with
  | nil => rfl
  | cons e t ih =>
    rw [List.map_cons, ← ih]
    rfl

theorem elementsOf_eq_map (elements : List Tree) :
    elementsOf elements = elements.map fun t => .table (valuesOf t) := by
  induction elements with
  | nil => rfl
  | cons t elements ih =>
    rw [List.map_cons, ← ih]
    rfl

theorem keysApart_valuesOf {t : Tree} (apart : (t.map Prod.fst).Nodup)
    (h : ∀ e ∈ t, e.2.toValue.KeysApart) : (Value.table (valuesOf t)).KeysApart := by
  rw [valuesOf_eq_map]
  refine .table ?_ ?_
  · rw [List.map_map]
    exact apart
  · intro e he
    obtain ⟨x, hx, rfl⟩ := List.mem_map.mp he
    exact h x hx

theorem Entry.KeysApart.toValue {e : Entry} (h : e.KeysApart) : e.toValue.KeysApart := by
  induction h with
  | value h => exact h
  | table apart _ ih => exact keysApart_valuesOf apart ih
  | tables apart _ ih =>
    refine .array ?_
    intro v hv
    rw [List.mem_reverse, elementsOf_eq_map] at hv
    obtain ⟨t, ht, rfl⟩ := List.mem_map.mp hv
    exact keysApart_valuesOf (apart t ht) (ih t ht)

theorem Tree.KeysApart.valuesOf {t : Tree} (ht : t.KeysApart) :
    (Value.table (valuesOf t)).KeysApart :=
  keysApart_valuesOf ht.apart fun e he => (ht.entries e he).toValue

/-! ## Values that are read -/

section

variable {cs rest : List Char} {v : Value}

end

namespace ReadsApart

variable {fuel depth : Nat} {cs rest : List Char}

end ReadsApart

end PictureInPicture.Toml
