import Mathlib.Data.List.Forall2
import Showreel.Proofs.Snapshot.Written

/-!
# What is kept of a snapshot

What is written of a snapshot keeps its sequences, the keys of its mappings and its leaves, however
deep they lie, and a record is kept as its tagged fields. Nothing is left in it that would have to
be written in another way, so that what is written of it again is the same.
-/

namespace Showreel

/-! ## Induction on trees -/

theorem sizeOf_lt_of_mem_entries {β : Type} [SizeOf β] {entries : List (String × β)}
    {entry : String × β} (h : entry ∈ entries) : sizeOf entry.2 < sizeOf entries := by
  have hpair : sizeOf entry = 1 + sizeOf entry.1 + sizeOf entry.2 := rfl
  have hlt := List.sizeOf_lt_of_mem h
  omega

/-- What holds of a list or a mapping if it holds of its parts, and of all other values, holds of
every document. -/
@[elab_as_elim]
theorem Document.induct {motive : Document → Prop}
    (leaf : ∀ v, (∀ items, v ≠ .list items) → (∀ entries, v ≠ .mapping entries) → motive v)
    (list : ∀ items, (∀ v ∈ items, motive v) → motive (.list items))
    (mapping : ∀ entries, (∀ entry ∈ entries, motive entry.2) → motive (.mapping entries)) :
    ∀ v, motive v
  | .list items => list items fun v _ => Document.induct leaf list mapping v
  | .mapping entries => mapping entries fun entry hentry =>
    have := sizeOf_lt_of_mem_entries hentry
    Document.induct leaf list mapping entry.2
  | .null => leaf _ nofun nofun
  | .flag _ => leaf _ nofun nofun
  | .int _ => leaf _ nofun nofun
  | .double _ => leaf _ nofun nofun
  | .text _ => leaf _ nofun nofun
termination_by v => sizeOf v

namespace Snapshot

@[elab_as_elim]
theorem induct {α : Type} {motive : Snapshot α → Prop} (number : ∀ a, motive (.number a))
    (given : ∀ v, motive (.given v))
    (list : ∀ items, (∀ x ∈ items, motive x) → motive (.list items))
    (tuple : ∀ items, (∀ x ∈ items, motive x) → motive (.tuple items))
    (mapping : ∀ entries, (∀ entry ∈ entries, motive entry.2) → motive (.mapping entries))
    (record : ∀ kind fields, (∀ field ∈ fields, motive field.2) → motive (.record kind fields)) :
    ∀ x, motive x
  | .number a => number a
  | .given v => given v
  | .list items => list items fun x _ => induct number given list tuple mapping record x
  | .tuple items => tuple items fun x _ => induct number given list tuple mapping record x
  | .mapping entries => mapping entries fun entry hentry =>
    have := sizeOf_lt_of_mem_entries hentry
    induct number given list tuple mapping record entry.2
  | .record kind fields => record kind fields fun field hfield =>
    have := sizeOf_lt_of_mem_entries hfield
    induct number given list tuple mapping record field.2
termination_by x => sizeOf x

/-! ## Writing -/

/-- What a snapshot is to be written as. Leaves stay what they are, a tuple becomes a list, and
parts keep their order and their keys. A record becomes a mapping of its fields, behind its kind; a
field under the key of the kind takes the place of the kind. -/
inductive Writes : Snapshot Document → Document → Prop
  | number (v : Document) : Writes (.number v) v
  | given (v : Document) : Writes (.given v) v
  | list {items : List (Snapshot Document)} {vs : List Document} :
      List.Forall₂ Writes items vs → Writes (.list items) (.list vs)
  | tuple {items : List (Snapshot Document)} {vs : List Document} :
      List.Forall₂ Writes items vs → Writes (.tuple items) (.list vs)
  | mapping {entries : List (String × Snapshot Document)} {written : List (String × Document)} :
      written.map Prod.fst = entries.map Prod.fst →
      List.Forall₂ (fun entry entry' => Writes entry.2 entry'.2) entries written →
      Writes (.mapping entries) (.mapping written)
  | record {kind : String} {fields : List (String × Snapshot Document)} {vs : List Document}
      {written : List (String × Document)} :
      written.map Prod.fst = kindKey :: (fields.map Prod.fst).filter (· ≠ kindKey) →
      List.Forall₂ (fun field v => Writes field.2 v) fields vs →
      List.Forall₂ (fun field v => Document.lookup field.1 written = some v) fields vs →
      (kindKey ∉ fields.map Prod.fst → Document.lookup kindKey written = some (.text kind)) →
      Writes (.record kind fields) (.mapping written)

/-- The fields of every record have different names. -/
abbrev WellNamed (x : Snapshot Document) : Prop :=
  x.AllRecords fun _ fields => (fields.map Prod.fst).Nodup

section Records

variable {fields : List (String × Snapshot Document)} (hnames : (fields.map Prod.fst).Nodup)

include hnames

/-- The kind comes first, then the fields whose place is not that of the kind. -/
theorem keys_plainFields (kind : String) :
    (plainFields fields [(kindKey, .text kind)]).map Prod.fst =
      kindKey :: (fields.map Prod.fst).filter (· ≠ kindKey) := by
  rw [← keys_map_plain] at hnames
  rw [plainFields_eq_putAll, Document.keys_putAll hnames, keys_map_plain]
  simp

theorem nodup_keys_plainFields (kind : String) :
    ((plainFields fields [(kindKey, .text kind)]).map Prod.fst).Nodup := by
  rw [keys_plainFields hnames, List.nodup_cons]
  exact ⟨by simp, hnames.filter _⟩

end Records

section Members

variable {α β : Type} {R : α → β → Prop} {f : α → β} {xs : List α}

theorem forall₂_map (h : ∀ x ∈ xs, R x (f x)) : List.Forall₂ R xs (xs.map f) :=
  List.forall₂_map_right_iff.mpr (List.forall₂_same.mpr h)

theorem eq_map_of_forall₂ {ys : List β} (h : List.Forall₂ R xs ys)
    (hR : ∀ x ∈ xs, ∀ y, R x y → y = f x) : ys = xs.map f := by
  induction h with
  | nil => rfl
  | cons hxy _ ih =>
    rw [List.forall_mem_cons] at hR
    rw [hR.1 _ hxy, ih hR.2, List.map_cons]

end Members

/-- A snapshot is written as it is to be written. -/
theorem writes_plain {x : Snapshot Document} (h : x.WellNamed) : Writes x x.plain := by
  induction x using Snapshot.induct with
  | number v => exact .number v
  | given v => exact .given v
  | list items ih =>
    rw [plain, plainItems_eq_map]
    exact .list (forall₂_map fun x hx => ih x hx (allRecords_list_iff.mp h x hx))
  | tuple items ih =>
    rw [plain, plainItems_eq_map]
    exact .tuple (forall₂_map fun x hx => ih x hx (allRecords_tuple_iff.mp h x hx))
  | mapping entries ih =>
    rw [plain, plainEntries_eq_map]
    refine .mapping (keys_map_plain entries) (forall₂_map fun entry hentry => ?_)
    exact ih entry hentry (allRecords_mapping_iff.mp h entry hentry)
  | record kind fields ih =>
    obtain ⟨hnames, hfields⟩ := allRecords_record_iff.mp h
    have hvalues : List.Forall₂ (fun field v => Writes field.2 v) fields
        (fields.map fun field => field.2.plain) :=
      forall₂_map fun field hfield => ih field hfield (hfields field hfield)
    have hlookup : List.Forall₂ (fun field v => Document.lookup field.1
        (plainFields fields [(kindKey, .text kind)]) = some v) fields
        (fields.map fun field => field.2.plain) :=
      forall₂_map fun field hfield => lookup_plainFields_of_mem hnames hfield _
    rw [plain]
    exact .record (keys_plainFields hnames kind) hvalues hlookup fun hkey =>
      lookup_kindKey hnames hkey kind

/-- There is no other way to write a snapshot. -/
theorem Writes.eq_plain {x : Snapshot Document} {d : Document} (h : x.WellNamed)
    (hwrites : Writes x d) : d = x.plain := by
  induction x using Snapshot.induct generalizing d with
  | number v =>
    cases hwrites
    rfl
  | given v =>
    cases hwrites
    rfl
  | list items ih =>
    cases hwrites with
    | list hitems =>
      rw [plain, plainItems_eq_map]
      exact congrArg _ (eq_map_of_forall₂ hitems fun x hx v =>
        ih x hx (allRecords_list_iff.mp h x hx))
  | tuple items ih =>
    cases hwrites with
    | tuple hitems =>
      rw [plain, plainItems_eq_map]
      exact congrArg _ (eq_map_of_forall₂ hitems fun x hx v =>
        ih x hx (allRecords_tuple_iff.mp h x hx))
  | mapping entries ih =>
    cases hwrites with
    | mapping hkeys hentries =>
      have hvalues := eq_map_of_forall₂ (List.forall₂_map_right_iff.mpr hentries)
        fun entry hentry v => ih entry hentry (allRecords_mapping_iff.mp h entry hentry)
      rw [plain, plainEntries_eq_map, List.zip_of_prod hkeys hvalues]
      refine congrArg _ (List.zip_of_prod (keys_map_plain entries) ?_).symm
      rw [List.map_map]
      rfl
  | record kind fields ih =>
    obtain ⟨hnames, hfields⟩ := allRecords_record_iff.mp h
    cases hwrites with
    | @record _ _ vs written hkeys hvalues hlookup hkind =>
      obtain rfl := eq_map_of_forall₂ hvalues fun field hfield v =>
        ih field hfield (hfields field hfield)
      have hfound := List.forall₂_same.mp (List.forall₂_map_right_iff.mp hlookup)
      rw [plain]
      refine congrArg _ (Document.eq_of_lookup ?_ ?_ fun key hkey => ?_)
      · rw [hkeys, keys_plainFields hnames]
      · rw [hkeys, ← keys_plainFields hnames kind]
        exact nodup_keys_plainFields hnames kind
      · by_cases hname : key ∈ fields.map Prod.fst
        · obtain ⟨field, hfield, rfl⟩ := List.mem_map.mp hname
          rw [hfound field hfield, lookup_plainFields_of_mem hnames hfield]
        · rw [hkeys] at hkey
          have hkey' : key = kindKey := by
            rcases List.mem_cons.mp hkey with heq | hmem
            · exact heq
            · exact absurd (List.mem_filter.mp hmem).1 hname
          subst hkey'
          rw [hkind hname, lookup_kindKey hnames hname]

/-! ## Writing again -/

theorem ofItems_eq_map {α : Type} (items : List Document) :
    (ofItems items : List (Snapshot α)) = items.map ofDocument := by
  induction items with
  | nil => rfl
  | cons v rest ih => rw [ofItems, ih, List.map_cons]

theorem ofEntries_eq_map {α : Type} (entries : List (String × Document)) :
    (ofEntries entries : List (String × Snapshot α)) =
      entries.map fun entry => (entry.1, ofDocument entry.2) := by
  induction entries with
  | nil => rfl
  | cons entry rest ih =>
    obtain ⟨k, v⟩ := entry
    rw [ofEntries, ih, List.map_cons]

theorem ofDocument_leaf {α : Type} {v : Document} (hlist : ∀ items, v ≠ .list items)
    (hmapping : ∀ entries, v ≠ .mapping entries) : (ofDocument v : Snapshot α) = .given v :=
  ofDocument.eq_3 v hlist hmapping

/-- A document is written as itself. -/
theorem plain_ofDocument (v : Document) : (ofDocument v).plain = v := by
  induction v using Document.induct with
  | leaf v hlist hmapping => rw [ofDocument_leaf hlist hmapping, plain]
  | list items ih =>
    rw [ofDocument, ofItems_eq_map, plain, plainItems_eq_map, List.map_map]
    exact congrArg _ ((List.map_congr_left ih).trans (List.map_id _))
  | mapping entries ih =>
    rw [ofDocument, ofEntries_eq_map, plain, plainEntries_eq_map, List.map_map]
    refine congrArg _ ((List.map_congr_left fun entry hentry => ?_).trans (List.map_id _))
    exact Prod.ext rfl (ih entry hentry)

/-- No record and no tuple, at any depth. -/
def IsConverted {α : Type} (x : Snapshot α) : Prop :=
  ∀ y, Part y x → (∀ kind fields, y ≠ .record kind fields) ∧ ∀ items, y ≠ .tuple items

/-- There is no record and no tuple in a document. -/
theorem isConverted_ofDocument {α : Type} (v : Document) :
    (ofDocument v : Snapshot α).IsConverted := by
  intro y hy
  induction v using Document.induct with
  | leaf v hlist hmapping =>
    rw [ofDocument_leaf hlist hmapping, part_given_iff] at hy
    rw [hy]
    exact ⟨nofun, nofun⟩
  | list items ih =>
    rw [ofDocument, ofItems_eq_map] at hy
    cases hy with
    | refl => exact ⟨nofun, nofun⟩
    | item hx hy =>
      obtain ⟨w, hw, rfl⟩ := List.mem_map.mp hx
      exact ih w hw hy
  | mapping entries ih =>
    rw [ofDocument, ofEntries_eq_map] at hy
    cases hy with
    | refl => exact ⟨nofun, nofun⟩
    | entry hx hy =>
      obtain ⟨entry, hentry, heq⟩ := List.mem_map.mp hx
      cases heq
      exact ih entry hentry hy

/-- What is written of a snapshot keeps what is in it, and is written as itself. -/
structure Kept (x : Snapshot Document) : Prop where
  /-- It is the one document that the snapshot is to be written as. -/
  writes_iff : ∀ d, Writes x d ↔ d = x.plain
  converted : IsConverted (ofDocument x.plain : Snapshot Document)
  again : (ofDocument x.plain).plain = x.plain

theorem WellNamed.kept {x : Snapshot Document} (h : x.WellNamed) : Kept x where
  writes_iff _ := ⟨Writes.eq_plain h, fun heq => heq ▸ writes_plain h⟩
  converted := isConverted_ofDocument _
  again := plain_ofDocument _

end Snapshot

end Showreel
