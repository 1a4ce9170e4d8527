import Mathlib.Algebra.Order.BigOperators.Group.List
import Mathlib.Data.List.GetD
import Mathlib.Data.List.Sort
import Mathlib.Order.Monotone.Basic
import Mathlib.Tactic.Linarith

/-!
# Layouts in whole frames

A layout lists how long the segments of a timeline are and by how much neighbours overlap. It says
nothing of scenes or transitions and computes nothing that may fail: starts, stops and the segments
to be seen at a frame are plain integers and positions. Since no overlap is longer than a segment
that it joins, starts and stops never decrease, and what is to be seen at a frame is a run of
neighbours.
-/

namespace Showreel

/-- The lengths of segments and the overlaps of neighbours. No overlap is longer than one of the two
segments that it joins. -/
structure Layout where
  lengths : List Int
  overlaps : List Int
  lengths_count : lengths.length = overlaps.length + 1
  lengths_pos : ∀ n ∈ lengths, 0 < n
  overlaps_nonneg : ∀ d ∈ overlaps, 0 ≤ d
  overlaps_le : ∀ i < overlaps.length,
    overlaps.getD i 0 ≤ lengths.getD i 0 ∧ overlaps.getD i 0 ≤ lengths.getD (i + 1) 0

namespace Layout

variable (l : Layout)

/-- The number of segments. -/
def count : Nat := l.lengths.length

/-- The length of a segment; there are none behind the last one. -/
def length (i : Nat) : Int := l.lengths.getD i 0

/-- The overlap of a segment with the next one; the last segment has no next one. -/
def overlap (i : Nat) : Int := l.overlaps.getD i 0

/-- The frame at which a segment starts. -/
def start (i : Nat) : Int := (l.lengths.take i).sum - (l.overlaps.take i).sum

/-- The frame at which a segment has ended. -/
def stop (i : Nat) : Int := l.start i + l.length i

/-- The frames at which the segments start, in order. -/
def starts : List Int := (List.range l.count).map l.start

/-- The frames at which the segments have ended, in order. -/
def stops : List Int := (List.range l.count).map l.stop

/-- All lengths together less all overlaps. -/
def duration : Int := l.lengths.sum - l.overlaps.sum

/-- The frame itself, or the first or last one if it lies outside. -/
def clamp (f : Int) : Int := max 0 (min f (l.duration - 1))

/-- The segments to be seen at a frame, in order. -/
def visible (c : Int) : List Nat :=
  (List.range l.count).filter fun i => l.start i ≤ c ∧ c < l.stop i

theorem count_eq_succ : l.count = l.overlaps.length + 1 := l.lengths_count

theorem count_pos : 0 < l.count := by
  rw [count_eq_succ]
  exact Nat.succ_pos _

theorem length_pos {i : Nat} (hi : i < l.count) : 0 < l.length i := by
  unfold length
  rw [List.getD_eq_getElem _ _ hi]
  exact l.lengths_pos _ (List.getElem_mem hi)

theorem length_eq_zero {i : Nat} (hi : l.count ≤ i) : l.length i = 0 :=
  List.getD_eq_default _ _ hi

theorem overlap_eq_zero {i : Nat} (hi : l.count ≤ i + 1) : l.overlap i = 0 := by
  rw [count_eq_succ] at hi
  exact List.getD_eq_default _ _ (Nat.le_of_succ_le_succ hi)

theorem length_nonneg (i : Nat) : 0 ≤ l.length i := by
  rcases lt_or_ge i l.count with h | h
  · exact (l.length_pos h).le
  · rw [l.length_eq_zero h]

theorem overlap_nonneg (i : Nat) : 0 ≤ l.overlap i := by
  unfold overlap
  rcases lt_or_ge i l.overlaps.length with h | h
  · rw [List.getD_eq_getElem _ _ h]
    exact l.overlaps_nonneg _ (List.getElem_mem h)
  · rw [List.getD_eq_default _ _ h]

/-- No overlap is longer than the segment that goes out in it. -/
theorem overlap_le_length (i : Nat) : l.overlap i ≤ l.length i := by
  rcases lt_or_ge i l.overlaps.length with h | h
  · exact (l.overlaps_le i h).1
  · rw [overlap, List.getD_eq_default _ _ h]
    exact l.length_nonneg i

/-- No overlap is longer than the segment that comes in during it. -/
theorem overlap_le_length_succ (i : Nat) : l.overlap i ≤ l.length (i + 1) := by
  rcases lt_or_ge i l.overlaps.length with h | h
  · exact (l.overlaps_le i h).2
  · rw [overlap, List.getD_eq_default _ _ h]
    exact l.length_nonneg (i + 1)

/-! ## Starts and stops -/

@[simp] theorem start_zero : l.start 0 = 0 := by simp [start]

private theorem sum_take_succ_getD (ns : List Int) (i : Nat) :
    (ns.take (i + 1)).sum = (ns.take i).sum + ns.getD i 0 := by
  rcases lt_or_ge i ns.length with h | h
  · rw [List.sum_take_succ _ _ h, List.getD_eq_getElem _ _ h]
  · rw [List.take_of_length_le h, List.take_of_length_le (by omega), List.getD_eq_default _ _ h,
      add_zero]

/-- A segment starts as many frames before its predecessor has ended as the two overlap. -/
theorem start_succ (i : Nat) : l.start (i + 1) = l.stop i - l.overlap i := by
  unfold stop start
  rw [sum_take_succ_getD, sum_take_succ_getD]
  unfold length overlap
  omega

theorem start_mono {i j : Nat} (hij : i ≤ j) : l.start i ≤ l.start j := by
  refine monotone_nat_of_le_succ (fun i => ?_) hij
  have h := l.overlap_le_length i
  rw [start_succ, stop]
  omega

theorem stop_mono {i j : Nat} (hij : i ≤ j) : l.stop i ≤ l.stop j := by
  refine monotone_nat_of_le_succ (fun i => ?_) hij
  have h := l.overlap_le_length_succ i
  rw [stop.eq_def l (i + 1), start_succ]
  omega

theorem starts_pairwise : l.starts.Pairwise (· ≤ ·) :=
  List.pairwise_map.mpr (List.pairwise_lt_range.imp fun h => l.start_mono h.le)

theorem stops_pairwise : l.stops.Pairwise (· ≤ ·) :=
  List.pairwise_map.mpr (List.pairwise_lt_range.imp fun h => l.stop_mono h.le)

theorem start_nonneg (i : Nat) : 0 ≤ l.start i := by
  have h := l.start_mono (Nat.zero_le i)
  rwa [start_zero] at h

theorem start_count : l.start l.count = l.duration := by
  have h := l.lengths_count
  unfold start duration count
  rw [List.take_length, List.take_of_length_le (by omega)]

/-- The timeline lasts until its last segment has ended. -/
theorem stop_last : l.stop (l.count - 1) = l.duration := by
  have hcount := l.count_pos
  have hstart := l.start_succ (l.count - 1)
  rw [Nat.sub_add_cancel hcount, start_count, overlap_eq_zero l (by omega)] at hstart
  omega

theorem duration_pos : 0 < l.duration := by
  have hcount := l.count_pos
  have hstart := l.start_nonneg (l.count - 1)
  have hlength := l.length_pos (i := l.count - 1) (by omega)
  rw [← stop_last, stop]
  omega

/-- No segment is longer than the whole. -/
theorem length_le_duration (i : Nat) : l.length i ≤ l.duration := by
  have hpos := l.duration_pos
  rcases lt_or_ge i l.count with hi | hi
  · have hstart := l.start_nonneg i
    have hstop := l.stop_mono (show i ≤ l.count - 1 by omega)
    rw [stop_last, stop] at hstop
    omega
  · rw [l.length_eq_zero hi]
    omega

theorem zipWith_starts_lengths : List.zipWith (· + ·) l.starts l.lengths = l.stops := by
  refine List.ext_getElem (by simp [starts, stops, count]) fun i hi hi' => ?_
  have hlength : i < l.lengths.length := by simpa [stops, count] using hi'
  simp only [List.getElem_zipWith, starts, stops, List.getElem_map, List.getElem_range, stop,
    length]
  rw [List.getD_eq_getElem _ _ hlength]

/-- Behind the last segment there is nothing to be seen. -/
theorem lt_count_of_lt_stop {i : Nat} {c : Int} (hstart : l.start i ≤ c) (hstop : c < l.stop i) :
    i < l.count := by
  by_contra hi
  rw [stop, l.length_eq_zero (by omega)] at hstop
  omega

/-! ## What is to be seen -/

theorem clamp_nonneg (f : Int) : 0 ≤ l.clamp f := le_max_left _ _

theorem clamp_lt_duration (f : Int) : l.clamp f < l.duration := by
  have h := l.duration_pos
  unfold clamp
  omega

theorem clamp_eq_self {f : Int} (hf : 0 ≤ f) (hf' : f < l.duration) : l.clamp f = f := by
  unfold clamp
  omega

@[simp] theorem mem_visible {c : Int} {i : Nat} :
    i ∈ l.visible c ↔ l.start i ≤ c ∧ c < l.stop i := by
  simp only [visible, List.mem_filter, List.mem_range, decide_eq_true_eq, and_iff_right_iff_imp]
  exact fun h => l.lt_count_of_lt_stop h.1 h.2

theorem lt_count_of_mem_visible {c : Int} {i : Nat} (h : i ∈ l.visible c) : i < l.count :=
  List.mem_range.mp (List.mem_of_mem_filter h)

theorem visible_pairwise (c : Int) : (l.visible c).Pairwise (· < ·) :=
  List.Pairwise.filter _ List.pairwise_lt_range

theorem le_of_head?_visible {c : Int} {i j : Nat} (hi : (l.visible c).head? = some i)
    (hj : j ∈ l.visible c) : i ≤ j := by
  have hpairwise := l.visible_pairwise c
  obtain ⟨rest, hrest⟩ := List.head?_eq_some_iff.mp hi
  rw [hrest, List.pairwise_cons] at hpairwise
  rw [hrest, List.mem_cons] at hj
  rcases hj with rfl | hj
  · exact le_rfl
  · exact (hpairwise.1 j hj).le

theorem le_of_getLast?_visible {c : Int} {i j : Nat} (hi : (l.visible c).getLast? = some i)
    (hj : j ∈ l.visible c) : j ≤ i := by
  have hpairwise := l.visible_pairwise c
  obtain ⟨front, hfront⟩ := List.getLast?_eq_some_iff.mp hi
  rw [hfront, List.pairwise_append] at hpairwise
  rw [hfront, List.mem_append, List.mem_singleton] at hj
  rcases hj with hj | rfl
  · exact (hpairwise.2.2 j hj i (List.mem_singleton.mpr rfl)).le
  · exact le_rfl

/-- A run of neighbours that holds just what is to be seen is what is to be seen. -/
theorem visible_eq_range' {c : Int} {first last : Nat}
    (h : ∀ i, first ≤ i ∧ i ≤ last ↔ l.start i ≤ c ∧ c < l.stop i) :
    l.visible c = List.range' first (last + 1 - first) := by
  refine (l.visible_pairwise c).eq_of_mem_iff List.pairwise_lt_range' fun i => ?_
  rw [mem_visible, ← h, List.mem_range'_1]
  omega

/-- The last segment that has started is to be seen. -/
theorem lt_stop_of_lt_start_succ {c : Int} {last : Nat} (hlast : last < l.count)
    (hend : c < l.duration) (hnext : last + 1 < l.count → c < l.start (last + 1)) :
    c < l.stop last := by
  rcases Nat.lt_or_ge (last + 1) l.count with h | h
  · have hlt := hnext h
    have hoverlap := l.overlap_nonneg last
    rw [start_succ] at hlt
    omega
  · obtain rfl : last = l.count - 1 := by omega
    rwa [stop_last]

/-- At every frame there is a last segment that has started, and it is to be seen. -/
theorem visible_ne_nil {c : Int} (hc : 0 ≤ c) (hend : c < l.duration) : l.visible c ≠ [] := by
  let last := Nat.findGreatest (fun i => l.start i ≤ c) (l.count - 1)
  have hcount := l.count_pos
  have hlast : last ≤ l.count - 1 := Nat.findGreatest_le _
  have hzero : l.start 0 ≤ c := by rwa [start_zero]
  have hstart : l.start last ≤ c :=
    Nat.findGreatest_spec (P := fun i => l.start i ≤ c) (Nat.zero_le _) hzero
  have hnext : last + 1 < l.count → c < l.start (last + 1) := fun h =>
    not_le.mp (Nat.findGreatest_is_greatest (Nat.lt_succ_self last) (by omega))
  have hmem : last ∈ l.visible c :=
    l.mem_visible.mpr ⟨hstart, l.lt_stop_of_lt_start_succ (by omega) hend hnext⟩
  exact List.ne_nil_of_mem hmem

/-- While the frames run through the timeline, a segment is to be seen on a stretch as long as
itself, which begins where it starts. -/
theorem filter_mem_visible {i : Nat} (hi : i < l.count) :
    (List.range l.duration.toNat).filter (fun f : Nat => decide (i ∈ l.visible f)) =
      List.range' (l.start i).toNat (l.length i).toNat := by
  have hstart := l.start_nonneg i
  have hlength := l.length_nonneg i
  have hstop : l.stop i ≤ l.duration := by
    rw [← stop_last]
    exact l.stop_mono (by omega)
  refine List.Pairwise.eq_of_mem_iff (List.Pairwise.filter _ List.pairwise_lt_range)
    List.pairwise_lt_range' fun f => ?_
  simp only [List.mem_filter, List.mem_range, mem_visible, decide_eq_true_eq, List.mem_range'_1,
    stop] at hstop ⊢
  omega

/-- While the frames run through the timeline, a segment is at each of its own frames once, in
order. -/
theorem map_filter_mem_visible {i : Nat} (hi : i < l.count) :
    ((List.range l.duration.toNat).filter fun f : Nat => decide (i ∈ l.visible f)).map
      (fun f : Nat => (f : Int) - l.start i) =
        (List.range (l.length i).toNat).map fun k : Nat => (k : Int) := by
  have hstart := l.start_nonneg i
  rw [l.filter_mem_visible hi, List.range'_eq_map_range, List.map_map]
  refine List.map_congr_left fun k _ => ?_
  simp only [Function.comp_apply]
  omega

/-! ## Windows -/

/-- Two neighbours share a frame exactly while the one behind has not been there for longer than
they overlap. -/
theorem both_visible_iff {c : Int} {i : Nat} :
    i ∈ l.visible c ∧ i + 1 ∈ l.visible c ↔
      0 ≤ c - l.start (i + 1) ∧ c - l.start (i + 1) < l.overlap i := by
  have hstart := l.start_mono (Nat.le_succ i)
  have hstop := l.stop_mono (Nat.le_succ i)
  have hsucc := l.start_succ i
  rw [Nat.succ_eq_add_one] at hstart hstop
  rw [mem_visible, mem_visible]
  omega

/-- A segment shares a frame with the one in front of it exactly while it comes in. -/
theorem pred_visible_iff {c : Int} {i : Nat} (hi : i + 1 ∈ l.visible c) :
    i ∈ l.visible c ↔ c - l.start (i + 1) < l.overlap i := by
  have hstart : 0 ≤ c - l.start (i + 1) := Int.sub_nonneg.mpr (l.mem_visible.mp hi).1
  have hboth := l.both_visible_iff (c := c) (i := i)
  rwa [and_iff_left hi, and_iff_right hstart] at hboth

/-- A segment shares a frame with the one behind it exactly while it goes out. -/
theorem succ_visible_iff {c : Int} {i : Nat} (hi : i ∈ l.visible c) :
    i + 1 ∈ l.visible c ↔ 0 ≤ c - l.start (i + 1) ∧ c - l.start (i + 1) < l.overlap i := by
  rw [← both_visible_iff, and_iff_right hi]

/-- Where the overlaps on both sides of a segment are not longer than the segment together, at most
two segments are to be seen at a time. -/
theorem length_visible_le_two {c : Int} {first n : Nat} (hrun : l.visible c = List.range' first n)
    (hroom : ∀ i, i + 2 < l.count → l.overlap i + l.overlap (i + 1) ≤ l.length (i + 1)) :
    n ≤ 2 := by
  by_contra hmany
  have hbottom : first ∈ l.visible c := by
    rw [hrun, List.mem_range'_1]
    omega
  have hthird : first + 2 ∈ l.visible c := by
    rw [hrun, List.mem_range'_1]
    omega
  have hfit := hroom first (l.lt_count_of_mem_visible hthird)
  rw [mem_visible] at hbottom hthird
  have hnext := l.start_succ first
  have hnext' : l.start (first + 2) = _ := l.start_succ (first + 1)
  rw [stop.eq_def l (first + 1)] at hnext'
  -- the segment between the two lasts from before the end of the lower one to after the start of
  -- the upper one
  have hlate : l.stop first ≤ l.start (first + 2) := by omega
  omega

end Layout

end Showreel
