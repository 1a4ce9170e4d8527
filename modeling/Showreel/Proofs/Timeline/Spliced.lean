import Showreel.Proofs.Timeline.Layout

/-!
# Layouts in place of a segment

A segment that lasts as long as a whole layout can be replaced by the segments of that layout. In
the layout that comes of it the segments in front keep their starts, the ones put in start as they
did, counted from where the segment started that they replace, and those behind start where they
did. So at every frame the same segments are to be seen. If nothing overlaps the segment that is
replaced, those put in share frames only with each other.
-/

namespace Showreel

/-! ## Lists -/

section Splice

variable {β : Type}

/-- A list of which the stretch from `p` up to `q` is replaced by another list. -/
def splice (xs ys : List β) (p q : Nat) : List β := xs.take p ++ ys ++ xs.drop q

theorem map_splice {γ : Type} (f : β → γ) (xs ys : List β) (p q : Nat) :
    (splice xs ys p q).map f = splice (xs.map f) (ys.map f) p q := by
  simp only [splice, List.map_append, List.map_take, List.map_drop]

theorem getElem?_splice_front {xs ys : List β} {p q i : Nat} (hp : p ≤ xs.length) (hi : i < p) :
    (splice xs ys p q)[i]? = xs[i]? := by
  have hfront : i < (xs.take p).length := by
    rw [List.length_take]
    omega
  rw [splice, List.append_assoc, List.getElem?_append_left hfront, List.getElem?_take_of_lt hi]

theorem getElem?_splice_inner {xs ys : List β} {p q j : Nat} (hp : p ≤ xs.length)
    (hj : j < ys.length) : (splice xs ys p q)[p + j]? = ys[j]? := by
  have hfront : (xs.take p).length = p := List.length_take_of_le hp
  rw [splice, List.append_assoc, List.getElem?_append_right (by omega), hfront,
    Nat.add_sub_cancel_left, List.getElem?_append_left hj]

/-- Behind the stretch the entries are the old ones, moved by what was put in less what was taken
out. -/
theorem getElem?_splice_back {xs ys : List β} {p q e i : Nat} (hp : p ≤ xs.length)
    (he : q + e = p + ys.length) (hi : q ≤ i) : (splice xs ys p q)[i + e]? = xs[i]? := by
  have hfront : (xs.take p ++ ys).length = p + ys.length := by
    rw [List.length_append, List.length_take_of_le hp]
  rw [splice, List.getElem?_append_right (by omega), hfront, List.getElem?_drop]
  congr 1
  omega

end Splice

namespace Layout

/-! ## Stand-ins -/

/-- The positions of what stands for a segment at position `i` once the one at `p`, of which
`inside` is to be seen, is replaced by the segments of `k`. -/
def standIns (k : Layout) (p : Nat) (inside : List Nat) (i : Nat) : List Nat :=
  if i < p then [i] else if i = p then inside.map (p + ·) else [i + k.overlaps.length]

section StandIns

variable {k : Layout} {p : Nat}

theorem mem_standIns {inside : List Nat} {i j : Nat} :
    j ∈ k.standIns p inside i ↔ (i < p ∧ j = i) ∨ (i = p ∧ ∃ n ∈ inside, j = p + n) ∨
      (p < i ∧ j = i + k.overlaps.length) := by
  unfold standIns
  rcases Nat.lt_trichotomy i p with hfront | rfl | hback
  · simp [hfront, hfront.ne, hfront.not_gt]
  · simp [eq_comm]
  · simp [hback, hback.ne', hback.not_gt]

theorem pairwise_standIns {c : Int} (i : Nat) :
    (k.standIns p (k.visible c) i).Pairwise (· < ·) := by
  unfold standIns
  split
  · exact List.pairwise_singleton _ _
  · split
    · exact List.pairwise_map.mpr ((k.visible_pairwise c).imp fun h => by omega)
    · exact List.pairwise_singleton _ _

/-- Stand-ins of earlier segments come first. -/
theorem standIns_lt {c : Int} {i i' j j' : Nat} (hlt : i < i')
    (hj : j ∈ k.standIns p (k.visible c) i) (hj' : j' ∈ k.standIns p (k.visible c) i') :
    j < j' := by
  have hcount := k.count_eq_succ
  have hbounds : ∀ i j, j ∈ k.standIns p (k.visible c) i →
      (i < p ∧ j = i) ∨ (i = p ∧ p ≤ j ∧ j ≤ p + k.overlaps.length) ∨
        (p < i ∧ j = i + k.overlaps.length) := by
    intro i j hj
    rcases mem_standIns.mp hj with hfront | ⟨hi, n, hn, rfl⟩ | hback
    · exact .inl hfront
    · have hlt := k.lt_count_of_mem_visible hn
      exact .inr (.inl ⟨hi, by omega, by omega⟩)
    · exact .inr (.inr hback)
  have hfirst := hbounds i j hj
  have hsecond := hbounds i' j' hj'
  omega

end StandIns

/-- Every position lies in front of the segments put in, among them or behind them. -/
theorem position_cases (k : Layout) (p j : Nat) :
    j < p ∨ (∃ n < k.count, j = p + n) ∨ ∃ i, p < i ∧ j = i + k.overlaps.length := by
  have hcount := k.count_eq_succ
  by_cases hfront : j < p
  · exact .inl hfront
  by_cases hinner : j < p + k.count
  · exact .inr (.inl ⟨j - p, by omega, by omega⟩)
  · exact .inr (.inr ⟨j - k.overlaps.length, by omega, by omega⟩)

/-- So does every pair of neighbours, the outer ones being taken for what is around. -/
theorem pair_cases (k : Layout) (p j : Nat) :
    j < p ∨ (∃ n, n + 1 < k.count ∧ j = p + n) ∨ ∃ i, p ≤ i ∧ j = i + k.overlaps.length := by
  have hcount := k.count_eq_succ
  by_cases hfront : j < p
  · exact .inl hfront
  by_cases hinner : j + 1 < p + k.count
  · exact .inr (.inl ⟨j - p, by omega, by omega⟩)
  · exact .inr (.inr ⟨j - k.overlaps.length, by omega, by omega⟩)

/-! ## Layouts that hold another one -/

/-- `m` is `l` with the segments of `k` in place of the one at position `p`. -/
structure Splices (l k m : Layout) (p : Nat) : Prop where
  inside : p < l.count
  lasts : l.length p = k.duration
  lengths : m.lengths = splice l.lengths k.lengths p (p + 1)
  overlaps : m.overlaps = splice l.overlaps k.overlaps p p

/-- Nothing overlaps the segment at position `p`. -/
def IsCutOut (l : Layout) (p : Nat) : Prop :=
  (∀ i, i + 1 = p → l.overlap i = 0) ∧ l.overlap p = 0

theorem IsCutOut.not_both {l : Layout} {p : Nat} (hcut : l.IsCutOut p) {c : Int} {i : Nat}
    (hi : i + 1 = p ∨ i = p) : ¬ (i ∈ l.visible c ∧ i + 1 ∈ l.visible c) := by
  have hzero : l.overlap i = 0 := by
    rcases hi with hi | rfl
    · exact hcut.1 i hi
    · exact hcut.2
  rw [both_visible_iff, hzero]
  omega

namespace Splices

variable {l k m : Layout} {p : Nat} (h : l.Splices k m p)

include h

/-! ### Lengths and overlaps -/

theorem le_overlaps : p ≤ l.overlaps.length := by
  have hp := h.inside
  rw [count_eq_succ] at hp
  exact Nat.le_of_lt_succ hp

theorem length_front {i : Nat} (hi : i < p) : m.length i = l.length i := by
  unfold length
  rw [h.lengths, List.getD_eq_getElem?_getD, List.getD_eq_getElem?_getD,
    getElem?_splice_front h.inside.le hi]

theorem length_inner {j : Nat} (hj : j < k.count) : m.length (p + j) = k.length j := by
  unfold length
  rw [h.lengths, List.getD_eq_getElem?_getD, List.getD_eq_getElem?_getD,
    getElem?_splice_inner h.inside.le hj]

theorem length_back {i : Nat} (hi : p < i) : m.length (i + k.overlaps.length) = l.length i := by
  have hshift : p + 1 + k.overlaps.length = p + k.lengths.length := by
    rw [k.lengths_count]
    omega
  unfold length
  rw [h.lengths, List.getD_eq_getElem?_getD, List.getD_eq_getElem?_getD,
    getElem?_splice_back h.inside.le hshift hi]

theorem overlap_front {i : Nat} (hi : i < p) : m.overlap i = l.overlap i := by
  unfold overlap
  rw [h.overlaps, List.getD_eq_getElem?_getD, List.getD_eq_getElem?_getD,
    getElem?_splice_front h.le_overlaps hi]

theorem overlap_inner {j : Nat} (hj : j < k.overlaps.length) :
    m.overlap (p + j) = k.overlap j := by
  unfold overlap
  rw [h.overlaps, List.getD_eq_getElem?_getD, List.getD_eq_getElem?_getD,
    getElem?_splice_inner h.le_overlaps hj]

theorem overlap_back {i : Nat} (hi : p ≤ i) :
    m.overlap (i + k.overlaps.length) = l.overlap i := by
  unfold overlap
  rw [h.overlaps, List.getD_eq_getElem?_getD, List.getD_eq_getElem?_getD,
    getElem?_splice_back h.le_overlaps rfl hi]

/-! ### Starts -/

theorem start_front {i : Nat} (hi : i ≤ p) : m.start i = l.start i := by
  induction i with
  | zero => rw [start_zero, start_zero]
  | succ i ih =>
    rw [start_succ, start_succ, stop, stop, ih (by omega), h.length_front hi, h.overlap_front hi]

theorem start_inner {j : Nat} (hj : j < k.count) : m.start (p + j) = l.start p + k.start j := by
  induction j with
  | zero => rw [Nat.add_zero, h.start_front le_rfl, start_zero, add_zero]
  | succ j ih =>
    have hoverlap : j < k.overlaps.length := by
      rw [count_eq_succ] at hj
      exact Nat.lt_of_succ_lt_succ hj
    rw [← Nat.add_assoc, start_succ, start_succ, stop, stop, ih (by omega),
      h.length_inner (by omega), h.overlap_inner hoverlap]
    omega

/-- The last segment put in ends where the segment ended that it stands for, so what is behind
starts where it did. -/
theorem start_back {i : Nat} (hi : p < i) : m.start (i + k.overlaps.length) = l.start i := by
  induction i, hi using Nat.le_induction with
  | base =>
    have hcount : k.overlaps.length < k.count := by
      rw [count_eq_succ]
      exact Nat.lt_succ_self _
    have hend : k.stop k.overlaps.length = k.duration := by
      have hlast := k.stop_last
      rwa [count_eq_succ, Nat.add_sub_cancel] at hlast
    have hmiddle : m.stop (p + k.overlaps.length) = l.stop p := by
      rw [stop, h.start_inner hcount, h.length_inner hcount, add_assoc, ← stop, hend, stop,
        h.lasts]
    rw [Nat.succ_eq_add_one, Nat.add_right_comm, start_succ, hmiddle, h.overlap_back le_rfl,
      start_succ]
  | succ i hi ih =>
    rw [Nat.add_right_comm, start_succ, start_succ, stop, stop, ih, h.length_back hi,
      h.overlap_back (by omega)]

theorem count_eq : m.count = l.count + k.overlaps.length := by
  have hp := h.inside
  have hcount := k.lengths_count
  unfold count at hp ⊢
  rw [h.lengths, splice, List.length_append, List.length_append, List.length_drop,
    List.length_take_of_le hp.le]
  omega

theorem duration_eq : m.duration = l.duration := by
  rw [← start_count, h.count_eq, h.start_back h.inside, start_count]

/-! ### What is to be seen -/

variable {c : Int}

theorem mem_visible_front {i : Nat} (hi : i < p) : i ∈ m.visible c ↔ i ∈ l.visible c := by
  rw [mem_visible, mem_visible, stop, stop, h.start_front hi.le, h.length_front hi]

theorem mem_visible_inner {j : Nat} (hj : j < k.count) :
    p + j ∈ m.visible c ↔ j ∈ k.visible (c - l.start p) := by
  rw [mem_visible, mem_visible, stop, stop, h.start_inner hj, h.length_inner hj]
  omega

theorem mem_visible_back {i : Nat} (hi : p < i) :
    i + k.overlaps.length ∈ m.visible c ↔ i ∈ l.visible c := by
  rw [mem_visible, mem_visible, stop, stop, h.start_back hi, h.length_back hi]

/-- The segments put in are to be seen only while the segment is that they stand for. -/
theorem mem_visible_of_inner {j : Nat} (hj : j ∈ k.visible (c - l.start p)) :
    p ∈ l.visible c := by
  have hcount := k.lt_count_of_mem_visible hj
  rw [mem_visible] at hj ⊢
  have hstart := k.start_nonneg j
  have hend : k.stop j ≤ k.duration := by
    rw [← k.stop_last]
    exact k.stop_mono (by omega)
  have hlasts := h.lasts
  unfold stop at hj ⊢ hend
  omega

/-- A segment shares a frame with the next one in `m` as it does in `l`. -/
theorem both_visible_front {i : Nat} (hi : i < p) :
    i ∈ m.visible c ∧ i + 1 ∈ m.visible c ↔ i ∈ l.visible c ∧ i + 1 ∈ l.visible c := by
  rw [both_visible_iff, both_visible_iff, h.start_front hi, h.overlap_front hi]

theorem both_visible_back {i : Nat} (hi : p ≤ i) :
    i + k.overlaps.length ∈ m.visible c ∧ i + 1 + k.overlaps.length ∈ m.visible c ↔
      i ∈ l.visible c ∧ i + 1 ∈ l.visible c := by
  rw [Nat.add_right_comm i 1, both_visible_iff, both_visible_iff, Nat.add_right_comm,
    h.start_back (by omega), h.overlap_back hi]

/-- Put in for a segment that nothing overlaps, a segment shares a frame with the one in front of it
as it does in `k`. -/
theorem pred_visible_inner (hcut : l.IsCutOut p) {j : Nat} (hj : j ∈ k.visible (c - l.start p)) :
    0 < p + j ∧ p + j - 1 ∈ m.visible c ↔ 0 < j ∧ j - 1 ∈ k.visible (c - l.start p) := by
  have hcount := k.lt_count_of_mem_visible hj
  cases j with
  | zero =>
    -- nothing overlaps the first inner segment from in front
    refine iff_of_false ?_ (by omega)
    rw [Nat.add_zero]
    rintro ⟨hpos, hprev⟩
    have hfront : p - 1 ∈ l.visible c := (h.mem_visible_front (by omega)).mp hprev
    refine hcut.not_both (.inl (Nat.sub_add_cancel hpos)) ⟨hfront, ?_⟩
    rw [Nat.sub_add_cancel hpos]
    exact h.mem_visible_of_inner hj
  | succ j =>
    rw [Nat.add_sub_cancel, ← Nat.add_assoc, Nat.add_sub_cancel, h.mem_visible_inner (by omega)]
    exact and_congr_left' (iff_of_true (Nat.succ_pos _) (Nat.succ_pos _))

/-- So it does with the one behind it. -/
theorem succ_visible_inner (hcut : l.IsCutOut p) {j : Nat} (hj : j ∈ k.visible (c - l.start p)) :
    p + j + 1 ∈ m.visible c ↔ j + 1 ∈ k.visible (c - l.start p) := by
  have hcount := k.lt_count_of_mem_visible hj
  have hlengths := k.count_eq_succ
  by_cases hlast : j + 1 < k.count
  · rw [Nat.add_assoc, h.mem_visible_inner hlast]
  · -- nothing overlaps the last inner segment from behind
    obtain rfl : j = k.overlaps.length := by omega
    refine iff_of_false (fun hnext => ?_) (fun hnext => ?_)
    · rw [Nat.add_right_comm, h.mem_visible_back (Nat.lt_succ_self p)] at hnext
      exact hcut.not_both (.inr rfl) ⟨h.mem_visible_of_inner hj, hnext⟩
    · exact hlast (k.lt_count_of_mem_visible hnext)

/-- What is to be seen are the stand-ins of what was to be seen. -/
theorem visible_eq :
    m.visible c = (l.visible c).flatMap (k.standIns p (k.visible (c - l.start p))) := by
  have hordered : ((l.visible c).flatMap (k.standIns p (k.visible (c - l.start p)))).Pairwise
      (· < ·) :=
    List.pairwise_flatMap.mpr ⟨fun i _ => pairwise_standIns i,
      (l.visible_pairwise c).imp fun hlt _ hj _ hj' => standIns_lt hlt hj hj'⟩
  refine (m.visible_pairwise c).eq_of_mem_iff hordered fun j => ?_
  rw [List.mem_flatMap]
  constructor
  · intro hj
    rcases k.position_cases p j with hfront | ⟨n, hcount, rfl⟩ | ⟨i, hi, rfl⟩
    · exact ⟨j, (h.mem_visible_front hfront).mp hj, mem_standIns.mpr (.inl ⟨hfront, rfl⟩)⟩
    · have hn := (h.mem_visible_inner hcount).mp hj
      exact ⟨p, h.mem_visible_of_inner hn, mem_standIns.mpr (.inr (.inl ⟨rfl, n, hn, rfl⟩))⟩
    · exact ⟨i, (h.mem_visible_back hi).mp hj, mem_standIns.mpr (.inr (.inr ⟨hi, rfl⟩))⟩
  · rintro ⟨i, hi, hj⟩
    rcases mem_standIns.mp hj with ⟨hfront, rfl⟩ | ⟨rfl, n, hn, rfl⟩ | ⟨hback, rfl⟩
    · exact (h.mem_visible_front hfront).mpr hi
    · exact (h.mem_visible_inner (k.lt_count_of_mem_visible hn)).mpr hn
    · exact (h.mem_visible_back hback).mpr hi

end Splices

end Layout

end Showreel
