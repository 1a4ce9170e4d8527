import Showreel.Proofs.Fallible
import Showreel.Proofs.Snapshot.Written
import Showreel.Scene.Registry

/-!
# Records of the scenes

Every record that a scene shows has fields of different names. The key under which kinds are written
is the name of a field in one kind of record only, a row of the panel in which a domain is verified.
That scene shows such rows at every frame, and no other scene shows any.
-/

namespace Showreel

namespace Snapshot

variable {α : Type}

/-- What is asked of the fields of a record: their names differ, and the key of kinds is the name of
the type of a row and of nothing else. -/
def Regular (kind : String) (fields : List (String × Snapshot α)) : Prop :=
  (fields.map Prod.fst).Nodup ∧
    if kind = "DnsRecord" then ∃ type ∈ ["A", "CNAME", "TXT"], (kindKey, .text type) ∈ fields
    else kindKey ∉ fields.map Prod.fst

/-- All records of a snapshot are regular. -/
def AllRegular (s : Snapshot α) : Prop :=
  ∀ kind fields, Part (.record kind fields) s → Regular kind fields

/-- A snapshot contains a record of a kind. -/
def HasKind (kind : String) (s : Snapshot α) : Prop := ∃ fields, Part (.record kind fields) s

section Parts

variable {kind : String}

@[simp] theorem allRegular_number (a : α) : (number a).AllRegular := allRecords_number a

@[simp] theorem allRegular_given (v : Document) : (given v : Snapshot α).AllRegular :=
  allRecords_given v

@[simp] theorem allRegular_tuple_iff {items : List (Snapshot α)} :
    (tuple items).AllRegular ↔ ∀ x ∈ items, x.AllRegular := allRecords_tuple_iff

@[simp] theorem allRegular_record_iff {fields : List (String × Snapshot α)} :
    (record kind fields).AllRegular ↔
      Regular kind fields ∧ ∀ field ∈ fields, field.2.AllRegular := allRecords_record_iff

@[simp] theorem not_hasKind_number (a : α) : ¬ (number a).HasKind kind := by
  rintro ⟨fields, h⟩
  rw [part_number_iff] at h
  cases h

@[simp] theorem not_hasKind_given (v : Document) : ¬ (given v : Snapshot α).HasKind kind := by
  rintro ⟨fields, h⟩
  rw [part_given_iff] at h
  cases h

@[simp] theorem hasKind_tuple_iff {items : List (Snapshot α)} :
    (tuple items).HasKind kind ↔ ∃ x ∈ items, x.HasKind kind := by
  constructor
  · rintro ⟨fields, h⟩
    rcases part_tuple_iff.mp h with heq | ⟨x, hx, h⟩
    · cases heq
    · exact ⟨x, hx, fields, h⟩
  · rintro ⟨x, hx, fields, h⟩
    exact ⟨fields, .member hx h⟩

@[simp] theorem hasKind_record_iff {kind' : String} {fields : List (String × Snapshot α)} :
    (record kind' fields).HasKind kind ↔ kind = kind' ∨ ∃ field ∈ fields, field.2.HasKind kind := by
  constructor
  · rintro ⟨fields', h⟩
    rcases part_record_iff.mp h with heq | ⟨field, hfield, h⟩
    · cases heq
      exact .inl rfl
    · exact .inr ⟨field, hfield, fields', h⟩
  · rintro (rfl | ⟨field, hfield, fields', h⟩)
    · exact ⟨fields, .refl _⟩
    · exact ⟨fields', .field hfield h⟩

end Parts

end Snapshot

section Scenes

variable {α : Type} [Arith α]

open Snapshot

@[simp] theorem Entrance.allRegular (e : Entrance α) : e.snapshot.AllRegular := by
  simp [Entrance.snapshot, Regular, kindKey]

@[simp] theorem Pointer.allRegular (p : Pointer α) : p.snapshot.AllRegular := by
  simp [Pointer.snapshot, Regular, kindKey, flag]

@[simp] theorem TypedField.allRegular (f : TypedField α) : f.snapshot.AllRegular := by
  simp [TypedField.snapshot, Regular, kindKey, flag, count]

theorem TitleCard.State.allRegular (s : TitleCard.State α) : s.snapshot.AllRegular := by
  simp [State.snapshot, Regular, kindKey, text]

theorem OutroCard.State.allRegular (s : OutroCard.State α) : s.snapshot.AllRegular := by
  simp [State.snapshot, Regular, kindKey, text]

theorem RegisterDomain.State.allRegular (s : RegisterDomain.State α) : s.snapshot.AllRegular := by
  simp [State.snapshot, Regular, kindKey, text, flag]

theorem EmbedWidget.State.allRegular (s : EmbedWidget.State α) : s.snapshot.AllRegular := by
  simp [State.snapshot, Regular, kindKey, text, flag]

theorem Dashboard.State.allRegular (s : Dashboard.State α) : s.snapshot.AllRegular := by
  simp [State.snapshot, Regular, kindKey, text, flag, count]

/-! ## Rows of the provider's panel -/

theorem DnsVerification.records_eq_ok {frame : α} {rows : List DnsVerification.Record}
    (h : DnsVerification.records frame = .ok rows) :
    rows ≠ [] ∧ ∀ row ∈ rows, row.type ∈ ["A", "CNAME", "TXT"] := by
  unfold DnsVerification.records at h
  obtain ⟨new, -, h⟩ := bind_eq_ok_iff.mp h
  cases new with
  | false =>
    cases h
    simp [DnsVerification.existing]
  | true =>
    obtain ⟨content, -, h⟩ := bind_eq_ok_iff.mp h
    cases h
    simp [DnsVerification.existing]

/-- What the scene shows of its views and rows is what they are at the frame. -/
theorem DnsVerification.parts_of_state [Spring.Animated α] {stage : Stage α} {threshold frame : α}
    {s : DnsVerification.State α} (h : DnsVerification.state stage threshold frame = .ok s) :
    DnsVerification.views frame threshold = .ok ⟨s.deaddropOpacity, s.deaddropInteractive,
      s.dnsOpacity, s.dnsInteractive⟩ ∧ DnsVerification.records frame = .ok s.records := by
  unfold DnsVerification.state at h
  obtain ⟨views, hviews, h⟩ := bind_eq_ok_iff.mp h
  obtain ⟨rows, hrows, h⟩ := bind_eq_ok_iff.mp h
  rw [hviews, hrows]
  obtain ⟨verified, -, h⟩ := bind_eq_ok_iff.mp h
  obtain ⟨border, -, h⟩ := bind_eq_ok_iff.mp h
  obtain ⟨clicking, -, h⟩ := bind_eq_ok_iff.mp h
  obtain ⟨pointerVisible, -, h⟩ := bind_eq_ok_iff.mp h
  obtain ⟨copiedVisible, -, h⟩ := bind_eq_ok_iff.mp h
  simp only [ite_bind_eq] at h
  obtain ⟨copied, -, h⟩ := bind_eq_ok_iff.mp h
  obtain ⟨badge, -, h⟩ := bind_eq_ok_iff.mp h
  obtain ⟨away, -, h⟩ := bind_eq_ok_iff.mp h
  obtain ⟨hovered, -, h⟩ := bind_eq_ok_iff.mp h
  obtain ⟨pointer, -, h⟩ := bind_eq_ok_iff.mp h
  cases h
  exact ⟨rfl, rfl⟩

omit [Arith α] in
theorem DnsVerification.Record.allRegular {row : DnsVerification.Record}
    (h : row.type ∈ ["A", "CNAME", "TXT"]) : (row.snapshot : Snapshot α).AllRegular := by
  have hrow : Regular "DnsRecord" [("type", (text row.type : Snapshot α)), ("name", text row.name),
      ("content", given row.content), ("is_new", flag row.isNew)] :=
    ⟨by simp, (if_pos rfl).mpr ⟨row.type, h, List.mem_cons_self⟩⟩
  simp only [Record.snapshot, allRegular_record_iff]
  exact ⟨hrow, by simp [text, flag]⟩

/-- All records of the scene are regular as far as its rows are. -/
theorem DnsVerification.State.allRegular {s : DnsVerification.State α}
    (h : ∀ row ∈ s.records, row.type ∈ ["A", "CNAME", "TXT"]) : s.snapshot.AllRegular := by
  have hrows : ∀ row ∈ s.records, (row.snapshot : Snapshot α).AllRegular :=
    fun row hrow => Record.allRegular (h row hrow)
  simpa [State.snapshot, Regular, kindKey, text, flag, count] using hrows

/-- The scene shows rows unless there are none. -/
theorem DnsVerification.State.hasKind {s : DnsVerification.State α} (h : s.records ≠ []) :
    s.snapshot.HasKind "DnsRecord" := by
  obtain ⟨row, hrow⟩ := List.exists_mem_of_ne_nil _ h
  have hkind : (row.snapshot : Snapshot α).HasKind "DnsRecord" := ⟨_, .refl _⟩
  rw [State.snapshot, hasKind_record_iff]
  refine .inr ⟨("dns_records", .tuple (s.records.map Record.snapshot)), by simp, ?_⟩
  exact hasKind_tuple_iff.mpr ⟨_, List.mem_map_of_mem hrow, hkind⟩

/-! ## Registered scenes -/

variable [Spring.Animated α] {scene : Scene} {stage : Stage α} {threshold frame : α}
  {s : Snapshot α}

theorem Scene.allRegular_of_state (h : scene.state stage threshold frame = .ok s) :
    s.AllRegular := by
  cases scene with
  | titleCard =>
    obtain ⟨state, -, h⟩ := bind_eq_ok_iff.mp h
    cases h
    exact state.allRegular
  | registerDomain =>
    obtain ⟨state, -, h⟩ := bind_eq_ok_iff.mp h
    cases h
    exact state.allRegular
  | dnsVerification =>
    obtain ⟨state, hstate, h⟩ := bind_eq_ok_iff.mp h
    cases h
    have hrows := DnsVerification.records_eq_ok (DnsVerification.parts_of_state hstate).2
    exact DnsVerification.State.allRegular hrows.2
  | embedWidget =>
    obtain ⟨state, -, h⟩ := bind_eq_ok_iff.mp h
    cases h
    exact state.allRegular
  | dashboard =>
    obtain ⟨state, -, h⟩ := bind_eq_ok_iff.mp h
    cases h
    exact state.allRegular
  | outroCard =>
    obtain ⟨state, -, h⟩ := bind_eq_ok_iff.mp h
    cases h
    exact state.allRegular

/-- Rows of the panel are shown at every frame of the scene that verifies a domain, and nowhere
else. -/
theorem Scene.hasKind_of_state (h : scene.state stage threshold frame = .ok s) :
    s.HasKind "DnsRecord" ↔ s.HasKind "DnsVerificationState" := by
  cases scene with
  | titleCard =>
    obtain ⟨state, -, h⟩ := bind_eq_ok_iff.mp h
    cases h
    simp [TitleCard.State.snapshot, Entrance.snapshot, text]
  | registerDomain =>
    obtain ⟨state, -, h⟩ := bind_eq_ok_iff.mp h
    cases h
    simp [RegisterDomain.State.snapshot, Entrance.snapshot, TypedField.snapshot, Pointer.snapshot,
      text, flag, count]
  | dnsVerification =>
    obtain ⟨state, hstate, h⟩ := bind_eq_ok_iff.mp h
    cases h
    have hrows := DnsVerification.records_eq_ok (DnsVerification.parts_of_state hstate).2
    exact iff_of_true (DnsVerification.State.hasKind hrows.1) ⟨_, .refl _⟩
  | embedWidget =>
    obtain ⟨state, -, h⟩ := bind_eq_ok_iff.mp h
    cases h
    simp [EmbedWidget.State.snapshot, Entrance.snapshot, TypedField.snapshot, Pointer.snapshot,
      text, flag, count]
  | dashboard =>
    obtain ⟨state, -, h⟩ := bind_eq_ok_iff.mp h
    cases h
    simp [Dashboard.State.snapshot, Entrance.snapshot, Pointer.snapshot, text, flag, count]
  | outroCard =>
    obtain ⟨state, -, h⟩ := bind_eq_ok_iff.mp h
    cases h
    simp [OutroCard.State.snapshot, Entrance.snapshot, text]

end Scenes

end Showreel
