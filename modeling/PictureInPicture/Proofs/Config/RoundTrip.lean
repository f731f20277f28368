-- Settings that are written down and read again. The one who writes and the one who reads go by
-- their own lists of keys and names. They agree on all of them: what is read is what was written,
-- each number to the last bit.
import PictureInPicture.Config.Encode
import PictureInPicture.Config.File
import PictureInPicture.Proofs.Scalar.Widening

namespace PictureInPicture

open Toml (Value)

/-! ## Values that a document can hold -/

namespace Toml.Value

/-- A document can hold the value: none of its whole numbers leaves the signed words of 64 bits. -/
inductive Writable : Value → Prop where
  | text (s : String) : Writable (.text s)
  | integer {n : Int} (low : -2 ^ 63 ≤ n) (high : n < 2 ^ 63) : Writable (.integer n)
  | float (x : Float) : Writable (.float x)
  | boolean (b : Bool) : Writable (.boolean b)
  | moment : Writable .moment
  | array {items : List Value} (h : ∀ v ∈ items, Writable v) : Writable (.array items)
  | table {entries : List (String × Value)} (h : ∀ e ∈ entries, Writable e.2) :
      Writable (.table entries)

attribute [simp] Writable.text Writable.float Writable.boolean

@[simp] theorem writable_table {entries : List (String × Value)} :
    (table entries).Writable ↔ ∀ e ∈ entries, e.2.Writable :=
  ⟨fun h => by cases h; assumption, .table⟩

end Toml.Value

namespace Encode

theorem writable_natural {n : Nat} : (natural n).Writable ↔ n < 2 ^ 63 := by
  constructor
  · intro h
    cases h
    omega
  · intro h
    exact .integer (by omega) (by omega)

/-- A word of 32 bits can always be written. -/
@[simp] theorem writable_uint32 (n : UInt32) : (natural n.toNat).Writable :=
  writable_natural.mpr (Nat.lt_trans n.toNat_lt (by decide))

@[simp] theorem writable_size (s : Size) : (size s).Writable := by
  simp [size]

@[simp] theorem writable_format (f : PixelFormat) : (format f).Writable := by
  cases f <;> simp [format]

@[simp] theorem writable_source (s : Source) : (source s).Writable := by
  simp [source]

@[simp] theorem writable_layout (l : Layout Float32) : (layout l).Writable := by
  have hturn : l.rotation.degrees < 2 ^ 63 := by cases l.rotation <;> decide
  simpa [layout, number, writable_natural] using hturn

@[simp] theorem writable_device (d : DevicePreferences) : (device d).Writable := by
  simp [device]

/-- Of all settings only the interval of the counters can be too large to be written. -/
theorem writable_config (c : Config Float32) :
    (config c).Writable ↔ c.diagnosticsInterval.toNat < 2 ^ 63 := by
  simp [config, writable_natural]

end Encode

namespace Decode

variable {β σ : Type}

/-! ## Choices -/

/-- The list has every choice there is, and no two choices have the same name. -/
structure Named (name : β → String) (all : List β) : Prop where
  listed : ∀ x, x ∈ all
  apart : ∀ x y, name x = name y → x = y

section

variable {name : β → String} {all : List β}

/-- A choice is found by its name. -/
theorem variant_name (h : Named name all) (x : β) : variant name all (name x) = .ok x := by
  unfold variant
  cases hfound : all.find? (name · = name x) with
  | none =>
    have hmissing := List.find?_eq_none.mp hfound x (h.listed x)
    exact absurd (decide_eq_true rfl) hmissing
  | some y =>
    have hsame := List.find?_some hfound
    rw [h.apart y x (of_decide_eq_true hsame)]

theorem choice_name (h : Named name all) (x : β) : choice name all (.text (name x)) = .ok x :=
  variant_name h x

theorem formatChoice_name (h : Named name all) (x : β) :
    formatChoice name all (.text (name x)) = .ok x := variant_name h x

end

theorem named_role : Named Role.name Role.all where
  listed x := by cases x <;> decide
  apart x y := by cases x <;> cases y <;> decide

theorem named_anchor : Named Anchor.name Anchor.all where
  listed x := by cases x <;> decide
  apart x y := by cases x <;> cases y <;> decide

theorem named_startup : Named StartupPolicy.name StartupPolicy.all where
  listed x := by cases x <;> decide
  apart x y := by cases x <;> cases y <;> decide

theorem named_power : Named PowerPreference.name PowerPreference.all where
  listed x := by cases x <;> decide
  apart x y := by cases x <;> cases y <;> decide

theorem named_presentMode : Named PresentPreference.name PresentPreference.all where
  listed x := by cases x <;> decide
  apart x y := by cases x <;> cases y <;> decide

theorem named_packing : Named Packing.name Packing.all where
  listed x := by cases x <;> decide
  apart x y := by cases x <;> cases y <;> decide

theorem named_channelOrder : Named ChannelOrder.name ChannelOrder.all where
  listed x := by cases x <;> decide
  apart x y := by cases x <;> cases y <;> decide

theorem named_subsampling : Named Subsampling.name Subsampling.all where
  listed x := by cases x <;> decide
  apart x y := by cases x <;> cases y <;> decide

/-! ## Numbers -/

theorem uint32_natural (n : UInt32) : uint32 (Encode.natural n.toNat) = .ok n := by
  have hword := n.toNat_lt
  have hfits : (0 ≤ (n.toNat : Int) && (n.toNat : Int) < UInt32.size) = true := by
    have hsize : UInt32.size = 2 ^ 32 := rfl
    rw [Bool.and_eq_true, decide_eq_true_eq, decide_eq_true_eq, hsize]
    omega
  unfold uint32 Encode.natural
  dsimp only
  rw [if_pos hfits, Int.toNat_natCast, UInt32.ofNat_toNat]

theorem uint64_natural (n : UInt64) : uint64 (Encode.natural n.toNat) = .ok n := by
  have hword := n.toNat_lt
  have hfits : (0 ≤ (n.toNat : Int) && (n.toNat : Int) < UInt64.size) = true := by
    have hsize : UInt64.size = 2 ^ 64 := rfl
    rw [Bool.and_eq_true, decide_eq_true_eq, decide_eq_true_eq, hsize]
    omega
  unfold uint64 Encode.natural
  dsimp only
  rw [if_pos hfits, Int.toNat_natCast, UInt64.ofNat_toNat]

theorem rotation_degrees (r : Rotation) : rotation (Encode.natural r.degrees) = .ok r := by
  cases r <;> rfl

theorem number_encode (x : Float32) : number (Encode.number x) = .ok x :=
  congrArg Except.ok (Decimal.narrow_widen x)

/-! ## Records -/

/-- A record is read from a table entry by entry. -/
theorem record_table (names : List String) (field : String → Value → σ → Result σ) (start : σ)
    (entries : List (String × Value)) :
    record names field start (.table entries) =
      entries.foldlM (fun known e => field e.1 e.2 known) start := rfl

theorem size_encode (s : Size) : size (Encode.size s) = .ok s := by
  unfold size Encode.size
  rw [record_table]
  simp only [List.foldlM_cons, List.foldlM_nil, uint32_natural]
  rfl

/-- The packing of a format says which key its one field has. -/
theorem format_table {entries : List (String × Value)} {kind : Value} {p : Packing}
    (hkind : entries.lookup "kind" = some kind) (hp : packing kind = .ok p) :
    format (.table entries) = formatOf p (entries.lookup (detailKey p)) := by
  unfold format
  dsimp only [Value.entries?]
  rw [hkind]
  dsimp only
  rw [hp]
  rfl

theorem packing_name (p : Packing) : packing (.text p.name) = .ok p := variant_name named_packing p

theorem format_encode (f : PixelFormat) : format (Encode.format f) = .ok f := by
  cases f with
  | packed order =>
    have horder := formatChoice_name named_channelOrder order
    unfold Encode.format
    rw [format_table rfl (packing_name .packed)]
    change PixelFormat.packed <$> formatChoice _ _ (.text order.name) = _
    rw [horder]
    rfl
  | planar subsampling =>
    have hsubsampling := formatChoice_name named_subsampling subsampling
    unfold Encode.format
    rw [format_table rfl (packing_name .planar)]
    change PixelFormat.planar <$> formatChoice _ _ (.text subsampling.name) = _
    rw [hsubsampling]
    rfl

theorem source_encode (s : Source) : source (Encode.source s) = .ok s := by
  unfold source Encode.source
  rw [record_table]
  simp only [List.foldlM_cons, List.foldlM_nil, size_encode, format_encode]
  rfl

theorem layout_encode (l : Layout Float32) : layout (Encode.layout l) = .ok l := by
  unfold layout Encode.layout
  rw [record_table]
  simp only [List.foldlM_cons, List.foldlM_nil, role, choice_name named_role,
    choice_name named_anchor, number_encode, rotation_degrees]
  rfl

theorem device_encode (d : DevicePreferences) : device (Encode.device d) = .ok d := by
  unfold device Encode.device
  rw [record_table]
  simp only [List.foldlM_cons, List.foldlM_nil, choice_name named_power, uint32_natural,
    choice_name named_presentMode]
  rfl

/-- Every key is read back, whatever the settings are. -/
theorem config_encode (c : Config Float32) : config (Encode.config c) = .ok c := by
  unfold config Encode.config
  rw [record_table]
  simp only [List.foldlM_cons, List.foldlM_nil, source_encode, size_encode, layout_encode,
    choice_name named_startup, device_encode, uint64_natural]
  rfl

end Decode

/-! ## Settings -/

namespace Config

/-- Settings that a session accepts can be written as long as their interval can, and what is
written is read as the same settings, which are accepted again. -/
theorem settings_are_read_as_they_were_written (c : Config Float32) (hv : c.validate = .ok ()) :
    ((Encode.config c).Writable ↔ c.diagnosticsInterval.toNat < 2 ^ 63) ∧
      Decode.config (Encode.config c) = .ok c ∧ c.checked = .ok c ∧
      ∀ text entries, Toml.parse text = some entries → .table entries = Encode.config c →
        Config.ofText text = .ok c := by
  have hchecked : c.checked = .ok c := by
    unfold checked
    rw [hv]
  refine ⟨Encode.writable_config c, Decode.config_encode c, hchecked, ?_⟩
  intro text entries hparse htree
  unfold ofText
  rw [hparse]
  dsimp only
  rw [htree, Decode.config_encode]
  exact hchecked

/-- None of these settings is a standard one, and the interval is the largest that can be
written. -/
theorem settings_without_a_standard_value_are_read_back :
    let c : Config Float32 :=
      { sources := ⟨⟨⟨1920, 1080⟩, .packed .bgra⟩, ⟨⟨3, 4294967295⟩, .planar .yuv422⟩⟩
        output := ⟨1, 1⟩
        layout := ⟨.primary, .topLeft, Scalar.ofDecimal 3 1, 1, 0, .deg90, Scalar.ofDecimal 7 1,
          true⟩
        startup := .bestEffort
        device := ⟨.high, 3, .fifo⟩
        diagnosticsInterval := 9223372036854775807 }
    c.validate = .ok () ∧ (Encode.config c).Writable ∧
      Decode.config (Encode.config c) = .ok c ∧ c.checked = .ok c := by
  intro c
  have hv : c.validate = .ok () := by decide +kernel
  obtain ⟨hwritable, hread, hchecked, _⟩ := settings_are_read_as_they_were_written c hv
  exact ⟨hv, hwritable.mpr (by decide), hread, hchecked⟩

end Config

end PictureInPicture
