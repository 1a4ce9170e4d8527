import Showreel.Proofs.Scene.Records
import Showreel.Proofs.Snapshot.Kept
import Showreel.Timeline.Frame

/-!
# Records in composed frames

A frame of a timeline over registered scenes is written with every field of every record in it, at
any depth and in nested timelines too. The kind of a record is written as well, but for rows of the
panel in which a domain is verified: the type of a row takes its place. So all kinds can be read
back just where that scene is not to be seen.
-/

namespace Showreel

open Snapshot

/-- A segment that shows a registered scene, or a timeline of such segments. -/
inductive Segment.OfScenes : Segment Document → Prop
  | scene {s : Segment Document} [Spring.Animated Document] (scene : Scene) (stage : Stage Document)
      (threshold : Document) :
      (∀ frame, s.scene frame = scene.state stage threshold frame) → OfScenes s
  | nested {s : Segment Document} {t : Timeline Document} {name : Document} :
      (∀ part ∈ t.segments, OfScenes part) → t.asSegment name = .ok s → OfScenes s

section Frames

variable {α : Type} [Arith α]

theorem Segment.scene_of_build {length : α} {scene : α → Except Fault (Snapshot α)}
    {name : Document} {s : Segment α} (h : Segment.build length scene name = .ok s) :
    s.scene = scene := by
  unfold Segment.build at h
  obtain ⟨short, -, h⟩ := bind_eq_ok_iff.mp h
  cases short with
  | false =>
    cases h
    rfl
  | true => exact absurd h (bind_ne_ok fun _ => bind_ne_ok fun _ => reject_ne_ok)

/-- What a layer shows is what the scene of a segment gave. -/
theorem Timeline.exists_scene_of_frameAt {t : Timeline α} {f : α} {frame : ComposedFrame α}
    (h : t.frameAt f = .ok frame) {layer : Layer α} (hlayer : layer ∈ frame.layers) :
    ∃ s ∈ t.segments, ∃ own, s.scene own = .ok layer.state := by
  unfold Timeline.frameAt at h
  obtain ⟨c, -, h⟩ := bind_eq_ok_iff.mp h
  obtain ⟨active, -, h⟩ := bind_eq_ok_iff.mp h
  obtain ⟨layers, hlayers, h⟩ := bind_eq_ok_iff.mp h
  cases h
  obtain ⟨i, -, hi⟩ := exists_of_mem_mapM hlayers hlayer
  unfold Timeline.layerAt at hi
  obtain ⟨s, hs, hi⟩ := bind_eq_ok_iff.mp hi
  obtain ⟨start, -, hi⟩ := bind_eq_ok_iff.mp hi
  obtain ⟨own, -, hi⟩ := bind_eq_ok_iff.mp hi
  obtain ⟨effect, -, hi⟩ := bind_eq_ok_iff.mp hi
  obtain ⟨state, hstate, hi⟩ := bind_eq_ok_iff.mp hi
  cases hi
  exact ⟨s, List.mem_of_getElem? (entryAt_eq_ok_iff.mp hs), own, hstate⟩

omit [Arith α] in
theorem ComposedFrame.allRegular_iff (frame : ComposedFrame α) :
    frame.snapshot.AllRegular ↔ ∀ layer ∈ frame.layers, layer.state.AllRegular := by
  simp [ComposedFrame.snapshot, Layer.snapshot, LayerEffect.snapshot, Regular, kindKey, count]

omit [Arith α] in
theorem ComposedFrame.hasKind_iff (frame : ComposedFrame α) {kind : String}
    (hkind : kind ∉ ["ComposedFrame", "Layer", "LayerEffect"]) :
    frame.snapshot.HasKind kind ↔ ∃ layer ∈ frame.layers, layer.state.HasKind kind := by
  simp only [List.mem_cons, List.not_mem_nil, or_false, not_or] at hkind
  simp [ComposedFrame.snapshot, Layer.snapshot, LayerEffect.snapshot, count, hkind]

end Frames

/-- What holds of the states of the segments holds of a composed frame. -/
theorem Timeline.allRegular_of_frameAt {t : Timeline Document} {f : Document}
    {frame : ComposedFrame Document}
    (ht : ∀ s ∈ t.segments, ∀ own state, s.scene own = .ok state → state.AllRegular ∧
      (state.HasKind "DnsRecord" ↔ state.HasKind "DnsVerificationState"))
    (h : t.frameAt f = .ok frame) : frame.snapshot.AllRegular ∧
      (frame.snapshot.HasKind "DnsRecord" ↔ frame.snapshot.HasKind "DnsVerificationState") := by
  have hstate : ∀ layer ∈ frame.layers, layer.state.AllRegular ∧
      (layer.state.HasKind "DnsRecord" ↔ layer.state.HasKind "DnsVerificationState") := by
    intro layer hlayer
    obtain ⟨s, hs, own, hown⟩ := Timeline.exists_scene_of_frameAt h hlayer
    exact ht s hs own layer.state hown
  refine ⟨frame.allRegular_iff.mpr fun layer hlayer => (hstate layer hlayer).1, ?_⟩
  rw [frame.hasKind_iff (by decide), frame.hasKind_iff (by decide)]
  exact exists_congr fun layer => and_congr_right fun hlayer => (hstate layer hlayer).2

theorem Segment.OfScenes.allRegular {s : Segment Document} (h : s.OfScenes) (own : Document)
    (state : Snapshot Document) (hstate : s.scene own = .ok state) : state.AllRegular ∧
      (state.HasKind "DnsRecord" ↔ state.HasKind "DnsVerificationState") := by
  induction h generalizing own state with
  | scene scene stage threshold hscene =>
    rw [hscene] at hstate
    exact ⟨Scene.allRegular_of_state hstate, Scene.hasKind_of_state hstate⟩
  | nested _ hsegment ih =>
    obtain ⟨duration, -, hbuild⟩ := bind_eq_ok_iff.mp hsegment
    rw [Segment.scene_of_build hbuild] at hstate
    obtain ⟨frame, hframe, hstate⟩ := bind_eq_ok_iff.mp hstate
    cases hstate
    exact Timeline.allRegular_of_frameAt ih hframe

/-- In what is written of a frame every record has all its fields under their names. It has its kind
unless it is a row of the panel, and there are such rows exactly if the scene that verifies a domain
is to be seen. -/
theorem Timeline.records_keep_kind_iff {t : Timeline Document} (ht : ∀ s ∈ t.segments, s.OfScenes)
    {f : Document} {frame : ComposedFrame Document} (hframe : t.frameAt f = .ok frame) :
    (frame.snapshot.HasKind "DnsRecord" ↔ frame.snapshot.HasKind "DnsVerificationState") ∧
      ∀ kind fields, Part (.record kind fields) frame.snapshot →
        Document.Part (record kind fields).plain frame.snapshot.plain ∧
        ∃ entries, (record kind fields).plain = .mapping entries ∧
          (∀ field ∈ fields, Document.lookup field.1 entries = some field.2.plain) ∧
          (Document.lookup kindKey entries = some (.text kind) ↔ kind ≠ "DnsRecord") := by
  obtain ⟨hregular, hkind⟩ := Timeline.allRegular_of_frameAt
    (fun s hs => (ht s hs).allRegular) hframe
  have hnames : ∀ kind fields, Part (.record kind fields) frame.snapshot →
      (fields.map Prod.fst).Nodup := fun kind fields h => (hregular kind fields h).1
  refine ⟨hkind, fun kind fields hpart => ⟨hpart.plain hnames, _, rfl, fun field hfield => ?_, ?_⟩⟩
  · exact lookup_plainFields_of_mem (hnames kind fields hpart) hfield _
  · obtain ⟨hnames, hfields⟩ := hregular kind fields hpart
    by_cases hrow : kind = "DnsRecord"
    · rw [if_pos hrow] at hfields
      obtain ⟨type, htype, hmem⟩ := hfields
      rw [lookup_plainFields_of_mem hnames hmem]
      refine iff_of_false ?_ (not_not.mpr hrow)
      subst hrow
      simp only [List.mem_cons, List.not_mem_nil, or_false] at htype
      rcases htype with rfl | rfl | rfl <;> simp [Snapshot.plain, text]
    · rw [if_neg hrow] at hfields
      exact iff_of_true (lookup_kindKey hnames hfields kind) hrow

/-- The scene that verifies a domain, by itself. -/
def verifying : List (Item Document) :=
  [.segment {
    length := .int 165
    scene := Scene.dnsVerification.state (Stage.ofRate (.int 30)) (.double 0.1)
    name := .text "dns_verification" }]

theorem Timeline.records_keep_kind_iff_verifying :
    ∃ t frame, Timeline.build verifying (.int 30) (.text "") = .ok t ∧
      (∀ s ∈ t.segments, s.OfScenes) ∧ t.frameAt (.int 0) = .ok frame ∧
      (frame.snapshot.HasKind "DnsRecord" ↔ frame.snapshot.HasKind "DnsVerificationState") ∧
      ∀ kind fields, Part (.record kind fields) frame.snapshot →
        ∃ entries, (record kind fields).plain = .mapping entries ∧
          (Document.lookup kindKey entries = some (.text kind) ↔ kind ≠ "DnsRecord") := by
  obtain ⟨t, frame, hbuild, hscenes, hframe⟩ : ∃ t frame,
      Timeline.build verifying (.int 30) (.text "") = .ok t ∧
      (∀ s ∈ t.segments, s.OfScenes) ∧ t.frameAt (.int 0) = .ok frame := by
    refine ⟨_, _, rfl, fun s hs => ?_, rfl⟩
    obtain rfl := List.mem_singleton.mp hs
    exact .scene .dnsVerification _ _ fun _ => rfl
  obtain ⟨hrows, hrecords⟩ := Timeline.records_keep_kind_iff hscenes hframe
  refine ⟨t, frame, hbuild, hscenes, hframe, hrows, fun kind fields hpart => ?_⟩
  obtain ⟨-, entries, hplain, -, hkind⟩ := hrecords kind fields hpart
  exact ⟨entries, hplain, hkind⟩

/-- The first row is written with its type where its kind belongs. -/
theorem kind_of_row_lost :
    ∃ t frame fields entries, Timeline.build verifying (.int 30) (.text "") = .ok t ∧
      (∀ s ∈ t.segments, s.OfScenes) ∧ t.frameAt (.int 0) = .ok frame ∧
      Part (.record "DnsRecord" fields) frame.snapshot ∧
      (record "DnsRecord" fields).plain = .mapping entries ∧
      Document.lookup kindKey entries = some (.text "A") := by
  let row : DnsVerification.Record :=
    { type := "A", name := "mycoolproject.com", content := .text "76.76.21.21" }
  refine ⟨_, _, [("type", .text row.type), ("name", .text row.name),
    ("content", .given row.content), ("is_new", .flag row.isNew)], _, rfl, fun s hs => ?_, rfl, ?_,
    rfl, rfl⟩
  · obtain rfl := List.mem_singleton.mp hs
    exact .scene .dnsVerification _ _ fun _ => rfl
  · -- the way down: layers, the only layer, its state, the rows, the first row
    refine .field (.tail _ (.head _)) (.member (.head _) ?_)
    refine .field (.tail _ (.tail _ (.tail _ (.tail _ (.head _))))) ?_
    refine .field (.tail _ (.tail _ (.tail _ (.tail _ (.tail _ (.head _)))))) ?_
    exact .member (.head _) (.refl _)

/-! ## What else is kept -/

/-- What is written of a snapshot whose records have fields of different names is what it is to be
written as: without records and tuples, its sequences, keys and leaves kept, and not changed if it is
written again. The frames of all timelines over registered scenes are such snapshots, whatever is
nested in them. -/
theorem snapshots_kept :
    (∀ x : Snapshot Document, x.WellNamed → x.Kept) ∧
    ∀ t : Timeline Document, (∀ s ∈ t.segments, s.OfScenes) → ∀ f frame, t.frameAt f = .ok frame →
      frame.snapshot.WellNamed ∧ frame.snapshot.Kept := by
  refine ⟨fun x hx => hx.kept, fun t ht f frame hframe => ?_⟩
  obtain ⟨hregular, -⟩ := Timeline.allRegular_of_frameAt (fun s hs => (ht s hs).allRegular) hframe
  have hnames : frame.snapshot.WellNamed := fun kind fields hpart => (hregular kind fields hpart).1
  exact ⟨hnames, hnames.kept⟩

/-- A record in a mapping in a tuple, and a frame of a timeline with a timeline inside. -/
theorem snapshots_kept_nested :
    (tuple [.mapping [("layer", .record "Layer" [("type", .text "top")]), ("size", .list [])],
      .number (.int 1)] : Snapshot Document).Kept ∧
    ∃ inner part outer frame, Timeline.build verifying (.int 30) (.text "") = .ok inner ∧
      inner.asSegment (.text "panel") = .ok part ∧
      Timeline.build [.segment part] (.int 30) (.text "") = .ok outer ∧
      outer.frameAt (.int 0) = .ok frame ∧ frame.snapshot.Kept := by
  constructor
  · exact snapshots_kept.1 _ (by simp [WellNamed, text])
  · obtain ⟨inner, part, outer, frame, hinner, hpart, houter, hframe, hsegments, hsegments'⟩ :
        ∃ inner part outer frame, Timeline.build verifying (.int 30) (.text "") = .ok inner ∧
          inner.asSegment (.text "panel") = .ok part ∧
          Timeline.build [.segment part] (.int 30) (.text "") = .ok outer ∧
          outer.frameAt (.int 0) = .ok frame ∧ (∀ s ∈ inner.segments, s.OfScenes) ∧
          outer.segments = [part] := by
      refine ⟨_, _, _, _, rfl, rfl, rfl, rfl, fun s hs => ?_, ?_⟩
      · obtain rfl := List.mem_singleton.mp hs
        exact .scene .dnsVerification _ _ fun _ => rfl
      · rfl
    have hscenes : ∀ s ∈ outer.segments, s.OfScenes := by
      rw [hsegments']
      intro s hs
      obtain rfl := List.mem_singleton.mp hs
      exact .nested hsegments hpart
    exact ⟨inner, part, outer, frame, hinner, hpart, houter, hframe,
      (snapshots_kept.2 outer hscenes _ frame hframe).2⟩

end Showreel
