import Showreel.Proofs.Timeline.Spliced
import Showreel.Proofs.Timeline.Windows

/-!
# Nested timelines

A timeline that stands as a segment in another one can also be written flat, with the items of the
inner timeline in place of the segment. Transitions then have the same windows. The layers around
the nested segment have the same effects either way. Those inside have the same effects if no outer
transition overlaps the nested segment; otherwise it takes them together or one by one.
-/

namespace Showreel

open Arith (ofInt)

variable {α : Type}

namespace Timeline

/-! ## Items in place of a segment -/

theorem Alternates.append {items rest : List (Item α)} {segments segments' : List (Segment α)}
    {transitions transitions' : List (Transition α)} (h : Alternates items segments transitions)
    (w : Transition α) (hrest : Alternates rest segments' transitions') :
    Alternates (items ++ .transition w :: rest) (segments ++ segments')
      (transitions ++ w :: transitions') := by
  induction h with
  | last s => exact .cons s w hrest
  | cons s t _ ih => exact .cons s t ih

/-- Items that alternate still do so when other such items take the place of a segment. -/
theorem Alternates.exists_splice {front back : List (Item α)} {s : Segment α}
    {segments : List (Segment α)} {transitions : List (Transition α)}
    (h : Alternates (front ++ .segment s :: back) segments transitions) :
    ∃ p, front.length = 2 * p ∧ segments[p]? = some s ∧ p ≤ transitions.length ∧
      ∀ {items segments' transitions'}, Alternates items segments' transitions' →
        Alternates (front ++ items ++ back) (splice segments segments' p (p + 1))
          (splice transitions transitions' p p) := by
  match front with
  | [] =>
    cases h with
    | last =>
      refine ⟨0, rfl, rfl, Nat.zero_le _, fun h' => ?_⟩
      simpa [splice] using h'
    | cons _ w hrest =>
      refine ⟨0, rfl, rfl, Nat.zero_le _, fun h' => ?_⟩
      simpa [splice] using h'.append w hrest
  | [first] => cases h
  | first :: second :: front =>
    cases h with
    | cons s' w h =>
      obtain ⟨p, hlength, hs, hp, hsplice⟩ := h.exists_splice
      refine ⟨p + 1, ?_, hs, Nat.succ_le_succ hp, fun h' => .cons s' w (hsplice h')⟩
      simp only [List.length_cons, hlength]
      omega
termination_by front.length

variable [Arith α]

theorem effectAmong_congr {t u : Timeline α} {seen seen' : List Nat} {i j : Nat} {frame frame' : α}
    (hprev : 0 < j ∧ j - 1 ∈ seen' ↔ 0 < i ∧ i - 1 ∈ seen)
    (hentering : 0 < i ∧ i - 1 ∈ seen → u.crossing (j - 1) frame' = t.crossing (i - 1) frame)
    (hnext : j + 1 ∈ seen' ↔ i + 1 ∈ seen)
    (hleaving : i + 1 ∈ seen → u.crossing j frame' = t.crossing i frame) :
    u.effectAmong seen' j frame' = t.effectAmong seen i frame := by
  unfold effectAmong
  by_cases hbelow : 0 < i ∧ i - 1 ∈ seen <;> by_cases habove : i + 1 ∈ seen
  · simp only [hprev, hnext, hbelow, habove, hentering hbelow, hleaving habove]
  · simp only [hprev, hnext, hbelow, habove, hentering hbelow, ↓reduceIte]
  · simp only [hprev, hnext, hbelow, habove, hleaving habove, ↓reduceIte]
  · simp only [hprev, hnext, hbelow, habove, ↓reduceIte]

variable [Arith.Whole α] [Spring.Animated α]

/-- Two timelines have the same transition in the same window at frames that lie equally far into
it. -/
theorem crossing_congr {t u : Timeline α} {l m : Layout} (ht : t.Follows l)
    (htdrives : t.drives = t.transitions.map fun tr => tr.drive t.fps) (hu : u.Follows m)
    (hudrives : u.drives = u.transitions.map fun tr => tr.drive u.fps) (hfps : u.fps = t.fps)
    {i j : Nat} (hi : i + 1 < l.count) (hj : j + 1 < m.count)
    (htransition : u.transitions[j]? = t.transitions[i]?) {c d : Int}
    (hoffset : d - m.start (j + 1) = c - l.start (i + 1)) :
    u.crossing j (ofInt d) = t.crossing i (ofInt c) := by
  obtain ⟨tr, htr, -⟩ := ht.exists_transition hi
  rw [htr] at htransition
  rw [crossing, crossing, ht.windowAt_eq htdrives htr hi, hu.windowAt_eq hudrives htransition hj,
    hfps, hoffset]

/-- The timeline `t` has `inner` for a segment at position `p`, and `u` has the segments and
transitions of `inner` there. -/
structure Nesting (t inner u : Timeline α) (nest : Segment α) (l k m : Layout) (p : Nat) :
    Prop where
  outer_follows : t.Follows l
  outer_drives : t.drives = t.transitions.map fun tr => tr.drive t.fps
  inner_follows : inner.Follows k
  inner_drives : inner.drives = inner.transitions.map fun tr => tr.drive inner.fps
  flat_follows : u.Follows m
  flat_drives : u.drives = u.transitions.map fun tr => tr.drive u.fps
  inner_fps : inner.fps = t.fps
  flat_fps : u.fps = t.fps
  layouts : l.Splices k m p
  nested : t.segments[p]? = some nest
  scene : nest.scene = fun frame => do return (← inner.frameAt frame).snapshot
  segments : u.segments = splice t.segments inner.segments p (p + 1)
  transitions : u.transitions = splice t.transitions inner.transitions p p

namespace Nesting

variable {t inner u : Timeline α} {nest : Segment α}
  {l k m : Layout} {p : Nat} (h : Nesting t inner u nest l k m p) {c : Int}

include h

/-! ## Segments and transitions -/

omit [Arith.Whole α] in
theorem lt_segments : p < t.segments.length := (List.getElem?_eq_some_iff.mp h.nested).1

omit [Arith.Whole α] in
theorem segments_front {i : Nat} (hi : i < p) : u.segments[i]? = t.segments[i]? := by
  rw [h.segments, getElem?_splice_front h.lt_segments.le hi]

omit [Arith.Whole α] in
theorem segments_inner {j : Nat} (hj : j < k.count) :
    u.segments[p + j]? = inner.segments[j]? := by
  rw [← h.inner_follows.segments_count] at hj
  rw [h.segments, getElem?_splice_inner h.lt_segments.le hj]

omit [Arith.Whole α] in
theorem segments_back {i : Nat} (hi : p < i) :
    u.segments[i + k.overlaps.length]? = t.segments[i]? := by
  have hcount : inner.segments.length = k.overlaps.length + 1 :=
    h.inner_follows.segments_count.trans k.count_eq_succ
  rw [h.segments, getElem?_splice_back h.lt_segments.le (by omega) hi]

omit [Arith.Whole α] in
theorem transitions_length : inner.transitions.length = k.overlaps.length := by
  have hlength := congrArg List.length h.inner_follows.transitions
  simpa using hlength

omit [Arith.Whole α] in
theorem le_transitions : p ≤ t.transitions.length := by
  have hlength := congrArg List.length h.outer_follows.transitions
  rw [List.length_map, List.length_map] at hlength
  rw [hlength]
  exact h.layouts.le_overlaps

/-! ## Windows -/

theorem crossing_front {i : Nat} (hi : i < p) (hnext : i + 1 ∈ l.visible c) :
    u.crossing i (ofInt c) = t.crossing i (ofInt c) := by
  have hcount := l.lt_count_of_mem_visible hnext
  have hcount' : i + 1 < m.count := by
    rw [h.layouts.count_eq]
    omega
  refine crossing_congr h.outer_follows h.outer_drives h.flat_follows h.flat_drives h.flat_fps
    hcount hcount' ?_ ?_
  · rw [h.transitions, getElem?_splice_front h.le_transitions hi]
  · rw [h.layouts.start_front hi]

theorem crossing_back {i : Nat} (hi : p ≤ i) (hnext : i + 1 ∈ l.visible c) :
    u.crossing (i + k.overlaps.length) (ofInt c) = t.crossing i (ofInt c) := by
  have hcount := l.lt_count_of_mem_visible hnext
  have hcount' : i + k.overlaps.length + 1 < m.count := by
    rw [h.layouts.count_eq]
    omega
  refine crossing_congr h.outer_follows h.outer_drives h.flat_follows h.flat_drives h.flat_fps
    hcount hcount' ?_ ?_
  · rw [h.transitions, getElem?_splice_back h.le_transitions (by rw [h.transitions_length]) hi]
  · rw [Nat.add_right_comm, h.layouts.start_back (by omega)]

theorem crossing_inner {j : Nat} (hnext : j + 1 ∈ k.visible (c - l.start p)) :
    u.crossing (p + j) (ofInt c) = inner.crossing j (ofInt (c - l.start p)) := by
  have hcount := k.lt_count_of_mem_visible hnext
  have hlengths := k.count_eq_succ
  have hcount' : p + j + 1 < m.count := by
    have hp := h.layouts.inside
    rw [h.layouts.count_eq]
    omega
  refine crossing_congr h.inner_follows h.inner_drives h.flat_follows h.flat_drives
    (h.flat_fps.trans h.inner_fps.symm) hcount hcount' ?_ ?_
  · rw [h.transitions, getElem?_splice_inner h.le_transitions]
    rw [h.transitions_length]
    omega
  · rw [Nat.add_assoc, h.layouts.start_inner hcount, Int.sub_sub]

/-! ## Effects -/

/-- The layers in front of the nested segment have the same effects. -/
theorem effectAt_front {i : Nat} (hi : i < p) (hvisible : i ∈ l.visible c) :
    u.effectAt i (ofInt c) = t.effectAt i (ofInt c) := by
  have hvisible' : i ∈ m.visible c := (h.layouts.mem_visible_front hi).mpr hvisible
  have hnext := h.layouts.both_visible_front (c := c) hi
  rw [and_iff_right hvisible, and_iff_right hvisible'] at hnext
  rw [h.flat_follows.effectAt_eq h.flat_drives hvisible',
    h.outer_follows.effectAt_eq h.outer_drives hvisible]
  refine effectAmong_congr ?_ (fun hprev => ?_) hnext (fun hboth => ?_)
  · rw [h.layouts.mem_visible_front (by omega)]
  · refine h.crossing_front (by omega) ?_
    rwa [Nat.sub_add_cancel hprev.1]
  · exact h.crossing_front hi hboth

/-- So do the layers behind it. -/
theorem effectAt_back {i : Nat} (hi : p < i) (hvisible : i ∈ l.visible c) :
    u.effectAt (i + k.overlaps.length) (ofInt c) = t.effectAt i (ofInt c) := by
  obtain ⟨j, rfl⟩ : ∃ j, i = j + 1 := ⟨i - 1, by omega⟩
  have hvisible' := (h.layouts.mem_visible_back (c := c) hi).mpr hvisible
  have hprev := h.layouts.both_visible_back (c := c) (i := j) (by omega)
  rw [and_iff_left hvisible, and_iff_left hvisible'] at hprev
  have hnext := h.layouts.mem_visible_back (c := c) (i := j + 1 + 1) (by omega)
  rw [show j + 1 + 1 + k.overlaps.length = j + k.overlaps.length + 1 + 1 by omega] at hnext
  rw [Nat.add_right_comm] at hvisible' ⊢
  rw [h.flat_follows.effectAt_eq h.flat_drives hvisible',
    h.outer_follows.effectAt_eq h.outer_drives hvisible]
  refine effectAmong_congr ?_ (fun hboth => ?_) ?_ (fun hboth => ?_)
  · rw [Nat.add_sub_cancel, Nat.add_sub_cancel, hprev]
    exact and_congr_left' (iff_of_true (Nat.succ_pos _) (Nat.succ_pos _))
  · exact h.crossing_back (by omega) hvisible
  · exact hnext
  · rw [Nat.add_right_comm]
    exact h.crossing_back (by omega) hboth

/-- A nested segment that nothing overlaps has all of its opacity and lies in its place. -/
theorem effectAt_nested (hcut : l.IsCutOut p) (hvisible : p ∈ l.visible c) :
    t.effectAt p (ofInt c) = .ok LayerEffect.full := by
  have hprev : ¬ (0 < p ∧ p - 1 ∈ l.visible c) := by
    rintro ⟨hpos, hprev⟩
    refine hcut.not_both (.inl (Nat.sub_add_cancel hpos)) ⟨hprev, ?_⟩
    rwa [Nat.sub_add_cancel hpos]
  have hnext : p + 1 ∉ l.visible c := fun hnext => hcut.not_both (.inr rfl) ⟨hvisible, hnext⟩
  rw [h.outer_follows.effectAt_eq h.outer_drives hvisible, effectAmong, if_neg hprev, ok_bind]
  exact if_neg hnext

/-- The layers of a nested segment that nothing overlaps have the same effects inside and in its
place. -/
theorem effectAt_inner (hcut : l.IsCutOut p) {j : Nat} (hj : j ∈ k.visible (c - l.start p)) :
    u.effectAt (p + j) (ofInt c) = inner.effectAt j (ofInt (c - l.start p)) := by
  have hj' := (h.layouts.mem_visible_inner (k.lt_count_of_mem_visible hj)).mpr hj
  rw [h.flat_follows.effectAt_eq h.flat_drives hj', h.inner_follows.effectAt_eq h.inner_drives hj]
  refine effectAmong_congr (h.layouts.pred_visible_inner hcut hj) (fun hboth => ?_)
    (h.layouts.succ_visible_inner hcut hj) (fun hboth => h.crossing_inner hboth)
  obtain ⟨j, rfl⟩ : ∃ i, j = i + 1 := ⟨j - 1, by omega⟩
  exact h.crossing_inner hj

end Nesting

end Timeline

end Showreel
