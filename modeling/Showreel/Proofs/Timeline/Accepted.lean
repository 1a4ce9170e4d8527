import Showreel.Proofs.Arith.Whole
import Showreel.Proofs.Timeline.Layout
import Showreel.Timeline.Frame

/-!
# Accepted timelines

A list of items becomes a timeline if segments and transitions alternate in it, no transition is
longer than a segment that it joins, and the rate of frames is positive. With lengths in whole
frames the timeline then follows a layout: its starts, ends and lengths are those of the layout.
Nothing is said here of scenes, easings and springs; an accepted timeline may still fail to show a
frame.
-/

namespace Showreel

open Arith (ofInt)

variable {α : Type} [Arith α]

theorem Segment.build_eq_ok_iff_le {length : α} {scene : α → Except Fault (Snapshot α)}
    {name : Document} {s : Segment α} : Segment.build length scene name = .ok s ↔
      Arith.le length (ofInt 0) = .ok false ∧ s = { length, scene, name } := by
  rw [Segment.build, unless_eq_ok_iff (bind_ne_ok fun _ => bind_ne_ok fun _ => reject_ne_ok),
    pure_eq_ok, Except.ok.injEq, eq_comm (b := s)]

theorem Transition.build_eq_ok_iff_lt {length : α} {presentation : Choice Presentation}
    {easing : α → Except Fault α} {spring : Option (Spring.Config α)} {t : Transition α} :
    Transition.build length presentation easing spring = .ok t ↔
      Arith.lt length (ofInt 0) = .ok false ∧ t = { length, presentation, easing, spring } := by
  rw [Transition.build, unless_eq_ok_iff (bind_ne_ok fun _ => reject_ne_ok), pure_eq_ok,
    Except.ok.injEq, eq_comm (b := t)]

/-- An item as it is made with a length in whole frames, or something that is no item at all. -/
inductive Item.IsWhole : Item α → Prop
  | segment {n : Int} {scene : α → Except Fault (Snapshot α)} {name : Document} {s : Segment α} :
      Segment.build (ofInt n) scene name = .ok s → IsWhole (.segment s)
  | transition {n : Int} {presentation : Choice Presentation} {easing : α → Except Fault α}
      {spring : Option (Spring.Config α)} {t : Transition α} :
      Transition.build (ofInt n) presentation easing spring = .ok t → IsWhole (.transition t)
  | other (kind : String) : IsWhole (.other kind)

section Whole

variable [Arith.Whole α]

theorem Segment.build_eq_ok_iff {n : Int} {scene : α → Except Fault (Snapshot α)} {name : Document}
    {s : Segment α} :
    Segment.build (ofInt n) scene name = .ok s ↔
      0 < n ∧ s = { length := ofInt n, scene, name } := by
  rw [Segment.build_eq_ok_iff_le, Arith.Whole.le_ofInt, Except.ok.injEq, decide_eq_false_iff_not,
    not_le]

theorem Transition.build_eq_ok_iff {n : Int} {presentation : Choice Presentation}
    {easing : α → Except Fault α} {spring : Option (Spring.Config α)} {t : Transition α} :
    Transition.build (ofInt n) presentation easing spring = .ok t ↔
      0 ≤ n ∧ t = { length := ofInt n, presentation, easing, spring } := by
  rw [Transition.build_eq_ok_iff_lt, Arith.Whole.lt_ofInt, Except.ok.injEq,
    decide_eq_false_iff_not, not_lt]

theorem Item.isWhole_segment_iff {s : Segment α} :
    (Item.segment s).IsWhole ↔ ∃ n : Int, 0 < n ∧ s.length = ofInt n := by
  constructor
  · intro h
    cases h with
    | segment hbuild =>
      obtain ⟨hn, rfl⟩ := Segment.build_eq_ok_iff.mp hbuild
      exact ⟨_, hn, rfl⟩
  · rintro ⟨n, hn, hlength⟩
    have hbuild : Segment.build (ofInt n) s.scene s.name = .ok s := by
      rw [Segment.build_eq_ok_iff, ← hlength]
      exact ⟨hn, rfl⟩
    exact .segment hbuild

theorem Item.isWhole_transition_iff {t : Transition α} :
    (Item.transition t).IsWhole ↔ ∃ n : Int, 0 ≤ n ∧ t.length = ofInt n := by
  constructor
  · intro h
    cases h with
    | transition hbuild =>
      obtain ⟨hn, rfl⟩ := Transition.build_eq_ok_iff.mp hbuild
      exact ⟨_, hn, rfl⟩
  · rintro ⟨n, hn, hlength⟩
    have hbuild : Transition.build (ofInt n) t.presentation t.easing t.spring = .ok t := by
      rw [Transition.build_eq_ok_iff, ← hlength]
      exact ⟨hn, rfl⟩
    exact .transition hbuild

end Whole

namespace Timeline

/-! ## Taking items apart -/

/-- Segments and transitions take turns in a list, which begins and ends with a segment. -/
inductive Alternates : List (Item α) → List (Segment α) → List (Transition α) → Prop
  | last (s : Segment α) : Alternates [.segment s] [s] []
  | cons (s : Segment α) (t : Transition α) {items : List (Item α)} {segments : List (Segment α)}
      {transitions : List (Transition α)} : Alternates items segments transitions →
      Alternates (.segment s :: .transition t :: items) (s :: segments) (t :: transitions)

omit [Arith α] in
theorem Alternates.length_items {items : List (Item α)} {segments : List (Segment α)}
    {transitions : List (Transition α)} (h : Alternates items segments transitions) :
    items.length % 2 = 1 := by
  induction h with
  | last => rfl
  | cons s t _ ih => simp only [List.length_cons]; omega

omit [Arith α] in
theorem Alternates.count {items : List (Item α)} {segments : List (Segment α)}
    {transitions : List (Transition α)} (h : Alternates items segments transitions) :
    segments.length = transitions.length + 1 := by
  induction h with
  | last => rfl
  | cons s t _ ih => simp only [List.length_cons]; omega

theorem Alternates.lengths_count {items : List (Item α)} {segments : List (Segment α)}
    {transitions : List (Transition α)} (h : Alternates items segments transitions)
    {lengths overlaps : List Int} (hsegments : segments.map Segment.length = lengths.map ofInt)
    (htransitions : transitions.map Transition.length = overlaps.map ofInt) :
    lengths.length = overlaps.length + 1 := by
  have hcount := h.count
  rwa [← List.length_map Segment.length, ← List.length_map Transition.length, hsegments,
    htransitions, List.length_map, List.length_map] at hcount

omit [Arith α] in
theorem Alternates.segment_mem {items : List (Item α)} {segments : List (Segment α)}
    {transitions : List (Transition α)} (h : Alternates items segments transitions)
    {s : Segment α} (hs : s ∈ segments) : .segment s ∈ items := by
  induction h with
  | last s' =>
    rw [List.mem_singleton.mp hs]
    exact List.mem_singleton.mpr rfl
  | cons s' t _ ih =>
    rcases List.mem_cons.mp hs with rfl | hs
    · exact List.mem_cons_self
    · exact List.mem_cons_of_mem _ (List.mem_cons_of_mem _ (ih hs))

omit [Arith α] in
theorem Alternates.transition_mem {items : List (Item α)} {segments : List (Segment α)}
    {transitions : List (Transition α)} (h : Alternates items segments transitions)
    {t : Transition α} (ht : t ∈ transitions) : .transition t ∈ items := by
  induction h with
  | last => cases ht
  | cons s t' _ ih =>
    rcases List.mem_cons.mp ht with rfl | ht
    · exact List.mem_cons_of_mem _ List.mem_cons_self
    · exact List.mem_cons_of_mem _ (List.mem_cons_of_mem _ (ih ht))

omit [Arith α] in
/-- Items are taken apart two at a time, a segment and the transition behind it. -/
theorem splitSegment_eq_ok_iff (position : Nat) {items : List (Item α)}
    {segments : List (Segment α)} {transitions : List (Transition α)} :
    splitSegment position items = .ok (segments, transitions) ∧ items.length % 2 = 1 ↔
      Alternates items segments transitions := by
  constructor
  · rintro ⟨h, hodd⟩
    match items with
    | [] => simp at hodd
    | [.segment s] =>
      simp only [splitSegment, splitTransition, ok_bind, pure_eq_ok, Except.ok.injEq,
        Prod.mk.injEq] at h
      obtain ⟨rfl, rfl⟩ := h
      exact .last s
    | .segment s :: .transition t :: rest =>
      simp only [splitSegment, splitTransition] at h
      obtain ⟨⟨ss, ts⟩, htail, h⟩ := bind_eq_ok_iff.mp h
      obtain ⟨⟨ss', ts'⟩, hrest, htail⟩ := bind_eq_ok_iff.mp htail
      cases htail
      cases h
      have hrest' : rest.length % 2 = 1 := by simp only [List.length_cons] at hodd; omega
      exact .cons s t ((splitSegment_eq_ok_iff _).mp ⟨hrest, hrest'⟩)
    | .segment s :: .segment s' :: rest => simp [splitSegment, splitTransition, reject] at h
    | .segment s :: .other kind :: rest => simp [splitSegment, splitTransition, reject] at h
    | .transition t :: rest => simp [splitSegment, reject] at h
    | .other kind :: rest => simp [splitSegment, reject] at h
  · intro h
    refine ⟨?_, h.length_items⟩
    induction h generalizing position with
    | last => rfl
    | cons s t _ ih => simp [splitSegment, splitTransition, ih]
termination_by items.length

omit [Arith α] in
/-- A list is taken apart exactly if segments and transitions alternate in it. -/
theorem split_eq_ok_iff {items : List (Item α)} {segments : List (Segment α)}
    {transitions : List (Transition α)} :
    split items = .ok (segments, transitions) ↔ Alternates items segments transitions := by
  rw [← splitSegment_eq_ok_iff 0]
  unfold split
  cases items with
  | nil => simp [reject]
  | cons item rest =>
    cases hsplit : splitSegment 0 (item :: rest) with
    | error => simp
    | ok parts =>
      rcases Nat.mod_two_eq_zero_or_one (rest.length + 1) with h | h
      · simp [reject, h]
      · simp [h]

omit [Arith α] in
theorem Alternates.unique {items : List (Item α)} {segments segments' : List (Segment α)}
    {transitions transitions' : List (Transition α)} (h : Alternates items segments transitions)
    (h' : Alternates items segments' transitions') :
    segments = segments' ∧ transitions = transitions' := by
  have heq := (split_eq_ok_iff.mpr h).symm.trans (split_eq_ok_iff.mpr h')
  exact Prod.mk.inj (Except.ok.inj heq)

/-! ## Lengths -/

/-- No overlap is longer than one of the two lengths beside it. -/
def Fits (lengths overlaps : List Int) : Prop :=
  ∀ i < overlaps.length,
    overlaps.getD i 0 ≤ lengths.getD i 0 ∧ overlaps.getD i 0 ≤ lengths.getD (i + 1) 0

theorem fits_nil (lengths : List Int) : Fits lengths [] := by
  intro i hi
  simp at hi

theorem fits_cons {n n' d : Int} {lengths overlaps : List Int} :
    Fits (n :: n' :: lengths) (d :: overlaps) ↔
      (d ≤ n ∧ d ≤ n') ∧ Fits (n' :: lengths) overlaps := by
  simp only [Fits, List.length_cons, Nat.forall_lt_succ_left, List.getD_cons_zero,
    List.getD_cons_succ]

section Whole

variable [Arith.Whole α]

/-- The check of overlaps passes exactly if all of them fit, wherever their count begins. -/
theorem checkOverlaps_eq_ok_iff {segments : List (Segment α)} {transitions : List (Transition α)}
    {lengths overlaps : List Int} (hsegments : segments.map Segment.length = lengths.map ofInt)
    (htransitions : transitions.map Transition.length = overlaps.map ofInt)
    (hcount : lengths.length = overlaps.length + 1) (index : Nat) :
    checkOverlaps index segments transitions = .ok () ↔ Fits lengths overlaps := by
  induction overlaps generalizing index segments transitions lengths with
  | nil =>
    obtain rfl : transitions = [] := by simpa using htransitions
    simp [checkOverlaps, fits_nil]
  | cons d overlaps ih =>
    match lengths, hcount with
    | n :: n' :: lengths, hcount =>
      obtain ⟨s, rest, rfl, hs, hrest⟩ := List.map_eq_cons_iff.mp hsegments
      obtain ⟨s', rest, rfl, hs', hrest'⟩ := List.map_eq_cons_iff.mp hrest
      obtain ⟨t, transitions, rfl, ht, htransitions⟩ := List.map_eq_cons_iff.mp htransitions
      have hrest : (s' :: rest).map Segment.length = (n' :: lengths).map ofInt := by
        simp [hs', hrest']
      rw [checkOverlaps, hs, hs', ht, fits_cons,
        ← ih hrest htransitions (by simpa using hcount) (index + 1)]
      by_cases hfit : min n n' < d
      · have hno : ¬ (d ≤ n ∧ d ≤ n') := by omega
        simp only [Arith.least_ofInt, ok_bind, Arith.Whole.lt_ofInt, hfit, decide_true, ↓reduceIte,
          hno, false_and, iff_false]
        exact bind_ne_ok fun _ => bind_ne_ok fun _ => bind_ne_ok fun _ => bind_ne_ok fun _ =>
          bind_ne_ok fun _ => reject_ne_ok
      · have hyes : d ≤ n ∧ d ≤ n' := by omega
        simp [hfit, hyes]

/-- Starts are counted from the first one, lengths forward and overlaps backward. -/
theorem startsFrom_eq {segments : List (Segment α)} {transitions : List (Transition α)}
    {lengths overlaps : List Int} (hsegments : segments.map Segment.length = lengths.map ofInt)
    (htransitions : transitions.map Transition.length = overlaps.map ofInt)
    (hcount : lengths.length = overlaps.length + 1) (m : Int) :
    startsFrom (ofInt m) segments transitions = .ok (((List.range lengths.length).map fun i =>
      m + ((lengths.take i).sum - (overlaps.take i).sum)).map ofInt) := by
  induction overlaps generalizing m segments transitions lengths with
  | nil =>
    obtain rfl : transitions = [] := by simpa using htransitions
    match lengths, hcount with
    | [n], _ =>
      obtain ⟨s, rest, rfl, hs, -⟩ := List.map_eq_cons_iff.mp hsegments
      simp [startsFrom, List.range_succ]
  | cons d overlaps ih =>
    match lengths, hcount with
    | n :: lengths, hcount =>
      obtain ⟨s, rest, rfl, hs, hrest⟩ := List.map_eq_cons_iff.mp hsegments
      obtain ⟨t, transitions, rfl, ht, htransitions⟩ := List.map_eq_cons_iff.mp htransitions
      have htail := ih hrest htransitions (by simpa using hcount) (m + n - d)
      simp only [startsFrom, hs, ht, Arith.Whole.add_ofInt, Arith.Whole.sub_ofInt, ok_bind, htail,
        pure_eq_ok, Except.ok.injEq]
      rw [List.length_cons, List.range_succ_eq_map, List.map_cons, List.map_cons]
      simp only [List.map_map, List.take_zero, List.sum_nil, sub_self, add_zero, List.cons.injEq,
        true_and]
      refine List.map_congr_left fun i _ => ?_
      simp only [Function.comp_apply, List.take_succ_cons, List.sum_cons]
      congr 1
      omega

theorem endsOf_eq {segments : List (Segment α)} {lengths : List Int} (starts : List Int)
    (hsegments : segments.map Segment.length = lengths.map ofInt) :
    endsOf (starts.map ofInt) segments = .ok ((List.zipWith (· + ·) starts lengths).map ofInt) := by
  unfold endsOf
  induction starts generalizing segments lengths with
  | nil => simp
  | cons m starts ih =>
    cases lengths with
    | nil =>
      obtain rfl : segments = [] := by simpa using hsegments
      simp
    | cons n lengths =>
      obtain ⟨s, rest, rfl, hs, hrest⟩ := List.map_eq_cons_iff.mp hsegments
      simp [hs, ih hrest]

/-- Items with lengths in whole frames that alternate have positive lengths and overlaps that are
not negative. -/
theorem Alternates.exists_lengths {items : List (Item α)} {segments : List (Segment α)}
    {transitions : List (Transition α)} (halt : Alternates items segments transitions)
    (hitems : ∀ item ∈ items, item.IsWhole) :
    ∃ lengths overlaps : List Int, segments.map Segment.length = lengths.map ofInt ∧
      transitions.map Transition.length = overlaps.map ofInt ∧ (∀ n ∈ lengths, 0 < n) ∧
      ∀ d ∈ overlaps, 0 ≤ d := by
  induction halt with
  | last s =>
    obtain ⟨n, hn, hs⟩ := Item.isWhole_segment_iff.mp (hitems (.segment s) (by simp))
    exact ⟨[n], [], by simp [hs], rfl, by simpa using hn, by simp⟩
  | @cons s t rest segments transitions _ ih =>
    have hrest : ∀ item ∈ rest, item.IsWhole := fun item hitem => hitems item (by simp [hitem])
    obtain ⟨lengths, overlaps, hsegments, htransitions, hlengths, hoverlaps⟩ := ih hrest
    obtain ⟨n, hn, hs⟩ := Item.isWhole_segment_iff.mp (hitems (.segment s) (by simp))
    obtain ⟨d, hd, ht⟩ := Item.isWhole_transition_iff.mp (hitems (.transition t) (by simp))
    refine ⟨n :: lengths, d :: overlaps, by simp [hs, hsegments], by simp [ht, htransitions],
      ?_, ?_⟩
    · simpa [hn] using hlengths
    · simpa [hd] using hoverlaps

end Whole

/-! ## Following a layout -/

/-- A timeline whose lengths, starts and ends are those of a layout. -/
structure Follows (t : Timeline α) (l : Layout) : Prop where
  segments : t.segments.map Segment.length = l.lengths.map ofInt
  transitions : t.transitions.map Transition.length = l.overlaps.map ofInt
  starts : t.starts = l.starts.map ofInt
  ends : t.ends = l.stops.map ofInt

/-- All that was checked and computed on the way to a timeline. -/
theorem steps_of_build [Spring.Animated α] {items : List (Item α)} {fps : α} {name : Document}
    {t : Timeline α} (h : build items fps name = .ok t) :
    Arith.le fps (ofInt 0) = .ok false ∧ Alternates items t.segments t.transitions ∧
      checkOverlaps 0 t.segments t.transitions = .ok () ∧
      startsFrom (ofInt 0) t.segments t.transitions = .ok t.starts ∧
      endsOf t.starts t.segments = .ok t.ends ∧ (t.fps = fps ∧ t.name = name) ∧
      t.drives = t.transitions.map fun tr => tr.drive fps := by
  unfold build at h
  obtain ⟨stopped, hfps, h⟩ := bind_eq_ok_iff.mp h
  cases stopped with
  | true =>
    simp only [↓reduceIte, reject_bind] at h
    exact absurd h (bind_ne_ok fun _ => reject_ne_ok)
  | false =>
    obtain ⟨⟨segments, transitions⟩, hsplit, h⟩ := bind_eq_ok_iff.mp h
    obtain ⟨_, hcheck, h⟩ := bind_eq_ok_iff.mp h
    obtain ⟨starts, hstarts, h⟩ := bind_eq_ok_iff.mp h
    obtain ⟨ends, hends, h⟩ := bind_eq_ok_iff.mp h
    cases h
    exact ⟨hfps, split_eq_ok_iff.mp hsplit, hcheck, hstarts, hends, ⟨rfl, rfl⟩, rfl⟩

section Whole

variable [Arith.Whole α] [Spring.Animated α]

/-- Items that alternate and whose lengths are those of a layout become the timeline that follows
it. -/
theorem build_eq_ok {items : List (Item α)} {segments : List (Segment α)}
    {transitions : List (Transition α)} {fps : α} {name : Document} (l : Layout)
    (hfps : Arith.le fps (ofInt 0) = .ok false) (halt : Alternates items segments transitions)
    (hsegments : segments.map Segment.length = l.lengths.map ofInt)
    (htransitions : transitions.map Transition.length = l.overlaps.map ofInt) :
    build items fps name = .ok {
      fps, name, segments, transitions
      starts := l.starts.map ofInt
      ends := l.stops.map ofInt
      drives := transitions.map fun t => t.drive fps } := by
  have hsplit := split_eq_ok_iff.mpr halt
  have hcheck :=
    (checkOverlaps_eq_ok_iff hsegments htransitions l.lengths_count 0).mpr l.overlaps_le
  have hstarts : startsFrom (ofInt 0) segments transitions = .ok (l.starts.map ofInt) := by
    have h := startsFrom_eq hsegments htransitions l.lengths_count 0
    simp only [zero_add] at h
    exact h
  have hends := endsOf_eq l.starts hsegments
  rw [l.zipWith_starts_lengths] at hends
  simp [build, hfps, hsplit, hcheck, hstarts, hends]

/-- What becomes a timeline follows a layout, and keeps the items, the rate, the name and what
drives its transitions. -/
theorem follows_of_build {items : List (Item α)} (hitems : ∀ item ∈ items, item.IsWhole) {fps : α}
    {name : Document} {t : Timeline α} (h : build items fps name = .ok t) :
    ∃ l, t.Follows l ∧ Arith.le fps (ofInt 0) = .ok false ∧
      Alternates items t.segments t.transitions ∧ t.fps = fps ∧ t.name = name ∧
      t.drives = t.transitions.map fun tr => tr.drive fps := by
  obtain ⟨hfps, halt, hcheck, hstarts, hends, ⟨hfps', hname⟩, hdrives⟩ := steps_of_build h
  obtain ⟨lengths, overlaps, hsegments, htransitions, hlengths, hoverlaps⟩ :=
    halt.exists_lengths hitems
  have hcount := halt.lengths_count hsegments htransitions
  let l : Layout := {
    lengths, overlaps
    lengths_count := hcount
    lengths_pos := hlengths
    overlaps_nonneg := hoverlaps
    overlaps_le := (checkOverlaps_eq_ok_iff hsegments htransitions hcount 0).mp hcheck }
  have hmade := h.symm.trans (build_eq_ok l hfps halt hsegments htransitions)
  refine ⟨l, ⟨hsegments, htransitions, ?_, ?_⟩, hfps, halt, hfps', hname, hdrives⟩
  · rw [Except.ok.inj hmade]
  · rw [Except.ok.inj hmade]

end Whole

end Timeline

end Showreel
