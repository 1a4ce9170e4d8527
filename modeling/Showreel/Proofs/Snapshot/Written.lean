import Mathlib.Data.List.Basic
import Showreel.Proofs.Document.Entries
import Showreel.Snapshot

/-!
# How records are written

A record is written as one mapping that holds its kind and its fields, at whatever depth it stands.
If its fields have different names, each of them can be read back under its name. The kind can be
read back unless a field has the name under which kinds are written. What the fields of a record are
is left to those who make records.
-/

namespace Showreel

/-- A document occurs in another one, at any depth. -/
inductive Document.Part : Document → Document → Prop
  | refl (v : Document) : Part v v
  | item {v w : Document} {items : List Document} : w ∈ items → Part v w → Part v (.list items)
  | entry {v w : Document} {key : String} {entries : List (String × Document)} :
      (key, w) ∈ entries → Part v w → Part v (.mapping entries)

namespace Snapshot

/-- A snapshot occurs in another one, at any depth. -/
inductive Part {α : Type} : Snapshot α → Snapshot α → Prop
  | refl (x : Snapshot α) : Part x x
  | item {x y : Snapshot α} {items : List (Snapshot α)} :
      y ∈ items → Part x y → Part x (.list items)
  | member {x y : Snapshot α} {items : List (Snapshot α)} :
      y ∈ items → Part x y → Part x (.tuple items)
  | entry {x y : Snapshot α} {key : String} {entries : List (String × Snapshot α)} :
      (key, y) ∈ entries → Part x y → Part x (.mapping entries)
  | field {x y : Snapshot α} {kind key : String} {fields : List (String × Snapshot α)} :
      (key, y) ∈ fields → Part x y → Part x (.record kind fields)

section Parts

variable {α : Type} {x : Snapshot α}

theorem part_number_iff {a : α} : Part x (.number a) ↔ x = .number a := by
  constructor
  · intro h
    cases h
    rfl
  · rintro rfl
    exact .refl _

theorem part_given_iff {v : Document} : Part x (.given v) ↔ x = .given v := by
  constructor
  · intro h
    cases h
    rfl
  · rintro rfl
    exact .refl _

theorem part_tuple_iff {items : List (Snapshot α)} :
    Part x (.tuple items) ↔ x = .tuple items ∨ ∃ y ∈ items, Part x y := by
  constructor
  · intro h
    cases h with
    | refl => exact .inl rfl
    | member hy h => exact .inr ⟨_, hy, h⟩
  · rintro (rfl | ⟨y, hy, h⟩)
    · exact .refl _
    · exact .member hy h

theorem part_record_iff {kind : String} {fields : List (String × Snapshot α)} :
    Part x (.record kind fields) ↔ x = .record kind fields ∨ ∃ field ∈ fields, Part x field.2 := by
  constructor
  · intro h
    cases h with
    | refl => exact .inl rfl
    | field hy h => exact .inr ⟨_, hy, h⟩
  · rintro (rfl | ⟨field, hfield, h⟩)
    · exact .refl _
    · exact .field hfield h

end Parts

/-! ## Properties of all records -/

/-- Every record that occurs in a snapshot has a property, which may depend on its kind. -/
def AllRecords {α : Type} (P : String → List (String × Snapshot α) → Prop) (s : Snapshot α) :
    Prop :=
  ∀ kind fields, Part (.record kind fields) s → P kind fields

section AllRecords

variable {α : Type} {P : String → List (String × Snapshot α) → Prop}

@[simp] theorem allRecords_number (a : α) : (number a).AllRecords P := by
  intro kind fields h
  rw [part_number_iff] at h
  cases h

@[simp] theorem allRecords_given (v : Document) : (given v).AllRecords P := by
  intro kind fields h
  rw [part_given_iff] at h
  cases h

@[simp] theorem allRecords_tuple_iff {items : List (Snapshot α)} :
    (tuple items).AllRecords P ↔ ∀ x ∈ items, x.AllRecords P := by
  constructor
  · intro h x hx kind fields hpart
    exact h kind fields (.member hx hpart)
  · intro h kind fields hpart
    rcases part_tuple_iff.mp hpart with heq | ⟨x, hx, hpart⟩
    · cases heq
    · exact h x hx kind fields hpart

@[simp] theorem allRecords_list_iff {items : List (Snapshot α)} :
    (list items).AllRecords P ↔ ∀ x ∈ items, x.AllRecords P := by
  constructor
  · intro h x hx kind fields hpart
    exact h kind fields (.item hx hpart)
  · intro h kind fields hpart
    cases hpart with
    | item hx hpart => exact h _ hx kind fields hpart

@[simp] theorem allRecords_mapping_iff {entries : List (String × Snapshot α)} :
    (mapping entries).AllRecords P ↔ ∀ entry ∈ entries, entry.2.AllRecords P := by
  constructor
  · intro h entry hentry kind fields hpart
    exact h kind fields (.entry hentry hpart)
  · intro h kind fields hpart
    cases hpart with
    | entry hentry hpart => exact h _ hentry kind fields hpart

@[simp] theorem allRecords_record_iff {kind : String} {fields : List (String × Snapshot α)} :
    (record kind fields).AllRecords P ↔
      P kind fields ∧ ∀ field ∈ fields, field.2.AllRecords P := by
  constructor
  · intro h
    exact ⟨h kind fields (.refl _), fun field hfield kind' fields' hpart =>
      h kind' fields' (.field hfield hpart)⟩
  · rintro ⟨hself, hfields⟩ kind' fields' hpart
    rcases part_record_iff.mp hpart with heq | ⟨field, hfield, hpart⟩
    · cases heq
      exact hself
    · exact hfields field hfield kind' fields' hpart

end AllRecords

/-! ## Fields -/

theorem plainItems_eq_map (items : List (Snapshot Document)) :
    plainItems items = items.map plain := by
  induction items with
  | nil => rfl
  | cons x rest ih => rw [plainItems, ih, List.map_cons]

theorem plainEntries_eq_map (entries : List (String × Snapshot Document)) :
    plainEntries entries = entries.map fun entry => (entry.1, entry.2.plain) := by
  induction entries with
  | nil => rfl
  | cons entry rest ih =>
    obtain ⟨k, x⟩ := entry
    rw [plainEntries, ih, List.map_cons]

section Fields

variable {fields : List (String × Snapshot Document)} {key : String} {x : Snapshot Document}

/-- The fields of a record are put one after the other, each as it is written. -/
theorem plainFields_eq_putAll (fields : List (String × Snapshot Document))
    (written : List (String × Document)) : plainFields fields written =
      Document.putAll (fields.map fun field => (field.1, field.2.plain)) written := by
  induction fields generalizing written with
  | nil => rfl
  | cons field rest ih =>
    obtain ⟨k, y⟩ := field
    rw [plainFields, ih]
    rfl

theorem keys_map_plain (fields : List (String × Snapshot Document)) :
    (fields.map fun field => (field.1, field.2.plain)).map Prod.fst = fields.map Prod.fst := by
  rw [List.map_map]
  rfl

/-- A field is read back under its name, whatever was written before it. -/
theorem lookup_plainFields_of_mem (hnames : (fields.map Prod.fst).Nodup) (hx : (key, x) ∈ fields)
    (written : List (String × Document)) :
    Document.lookup key (plainFields fields written) = some x.plain := by
  have hmem : (key, x.plain) ∈ fields.map fun field => (field.1, field.2.plain) :=
    List.mem_map_of_mem hx
  rw [← keys_map_plain] at hnames
  rw [plainFields_eq_putAll, Document.lookup_putAll hnames, Document.lookup_of_mem hnames hmem]
  rfl

/-- The kind is read back from a record none of whose fields takes its key. -/
theorem lookup_kindKey (hnames : (fields.map Prod.fst).Nodup) (hkey : kindKey ∉ fields.map Prod.fst)
    (kind : String) :
    Document.lookup kindKey (plainFields fields [(kindKey, .text kind)]) = some (.text kind) := by
  rw [← keys_map_plain] at hnames hkey
  rw [plainFields_eq_putAll, Document.lookup_putAll hnames, Document.lookup_eq_none_iff.mpr hkey]
  rfl

end Fields

/-- What occurs in a snapshot whose records all have fields of different names is written in what is
written of the snapshot. -/
theorem Part.plain {x s : Snapshot Document} (h : Part x s)
    (hnames : ∀ kind fields, Part (.record kind fields) s → (fields.map Prod.fst).Nodup) :
    Document.Part x.plain s.plain := by
  induction h with
  | refl => exact .refl _
  | item hy _ ih =>
    rw [Snapshot.plain, plainItems_eq_map]
    exact .item (List.mem_map_of_mem hy) (ih fun kind fields h => hnames kind fields (.item hy h))
  | member hy _ ih =>
    rw [Snapshot.plain, plainItems_eq_map]
    exact .item (List.mem_map_of_mem hy) (ih fun kind fields h => hnames kind fields (.member hy h))
  | @entry y key entries hy _ ih =>
    rw [Snapshot.plain, plainEntries_eq_map]
    exact .entry (List.mem_map.mpr ⟨_, hy, rfl⟩)
      (ih fun kind fields h => hnames kind fields (.entry hy h))
  | @field y kind key fields hy _ ih =>
    have hlookup := lookup_plainFields_of_mem (hnames kind fields (.refl _)) hy
      [(kindKey, .text kind)]
    rw [Snapshot.plain]
    exact .entry (Document.mem_of_lookup hlookup)
      (ih fun kind fields h => hnames kind fields (.field hy h))

end Snapshot

end Showreel
