import Showreel.Proofs.Timeline.Nested

/-!
# Timelines that are joined

Two lists of items are joined by a transition between the last segment of the one and the first
segment of the other. The timeline made of the whole list shows the first part as it was until the
new window begins, and the second part as it was once the window is over, only later and behind the
segments of the first. So an item that is put to an end of a timeline changes nothing outside of the
window in which it meets the rest.
-/

namespace Showreel

open Arith (ofInt)

/-! ## Layouts -/

namespace Layout

/-- `m` has the segments of `l` and behind them those of `k`, with an overlap of `d` frames where
they meet. -/
structure Joins (l k m : Layout) (d : Int) : Prop where
  lengths : m.lengths = l.lengths ++ k.lengths
  overlaps : m.overlaps = l.overlaps ++ d :: k.overlaps

namespace Joins

variable {l k m : Layout} {d : Int} (h : l.Joins k m d)

include h

theorem length_front {i : Nat} (hi : i < l.count) : m.length i = l.length i := by
  unfold length
  rw [h.lengths, List.getD_append _ _ _ _ hi]

theorem length_back (i : Nat) : m.length (l.count + i) = k.length i := by
  unfold length count
  rw [h.lengths, List.getD_append_right _ _ _ _ (Nat.le_add_right _ i), Nat.add_sub_cancel_left]

theorem overlap_front {i : Nat} (hi : i + 1 < l.count) : m.overlap i = l.overlap i := by
  rw [count_eq_succ] at hi
  unfold overlap
  rw [h.overlaps, List.getD_append _ _ _ _ (Nat.lt_of_succ_lt_succ hi)]

theorem overlap_back (i : Nat) : m.overlap (l.count + i) = k.overlap i := by
  unfold overlap
  rw [h.overlaps, count_eq_succ, List.getD_append_right _ _ _ _ (by omega), Nat.add_right_comm,
    Nat.add_assoc, Nat.add_sub_cancel_left, List.getD_cons_succ]

theorem overlap_between : m.overlap (l.count - 1) = d := by
  unfold overlap
  rw [h.overlaps, count_eq_succ, Nat.add_sub_cancel,
    List.getD_append_right _ _ _ _ le_rfl, Nat.sub_self, List.getD_cons_zero]

theorem count_eq : m.count = l.count + k.count := by
  unfold count
  rw [h.lengths, List.length_append]

theorem duration_eq : m.duration = l.duration + k.duration - d := by
  unfold duration
  rw [h.lengths, h.overlaps, List.sum_append, List.sum_append, List.sum_cons]
  omega

theorem start_front {i : Nat} (hi : i < l.count) : m.start i = l.start i := by
  induction i with
  | zero => rw [start_zero, start_zero]
  | succ i ih =>
    rw [start_succ, start_succ, stop, stop, ih (by omega), h.length_front (by omega),
      h.overlap_front hi]

theorem stop_front {i : Nat} (hi : i < l.count) : m.stop i = l.stop i := by
  rw [stop, stop, h.start_front hi, h.length_front hi]

/-- What is behind starts where it did, counted from where the new window begins. -/
theorem start_back (i : Nat) : m.start (l.count + i) = k.start i + (l.duration - d) := by
  induction i with
  | zero =>
    have hcount := l.count_pos
    have hlast := m.start_succ (l.count - 1)
    rw [Nat.sub_add_cancel hcount, h.stop_front (by omega), h.overlap_between, stop_last] at hlast
    rw [Nat.add_zero, start_zero, hlast]
    omega
  | succ i ih =>
    rw [← Nat.add_assoc, start_succ, start_succ, stop, stop, ih, h.length_back, h.overlap_back]
    omega

theorem stop_back (i : Nat) : m.stop (l.count + i) = k.stop i + (l.duration - d) := by
  rw [stop, stop, h.start_back, h.length_back]
  omega

/-- Until the window begins nothing is to be seen of what is behind. -/
theorem visible_front {c : Int} (hc : c < l.duration - d) : m.visible c = l.visible c := by
  refine (m.visible_pairwise c).eq_of_mem_iff (l.visible_pairwise c) fun i => ?_
  rw [mem_visible, mem_visible]
  rcases Nat.lt_or_ge i l.count with hi | hi
  · rw [h.start_front hi, h.stop_front hi]
  · obtain ⟨i, rfl⟩ := Nat.exists_eq_add_of_le hi
    have hstart := k.start_nonneg i
    refine iff_of_false (fun hvisible => ?_) fun hvisible => ?_
    · rw [h.start_back] at hvisible
      omega
    · exact absurd (l.lt_count_of_lt_stop hvisible.1 hvisible.2) (by omega)

/-- Once the window is over nothing is to be seen of what is in front. -/
theorem visible_back {c : Int} (hc : d ≤ c) :
    m.visible (c + (l.duration - d)) = (k.visible c).map (l.count + ·) := by
  have hordered : ((k.visible c).map (l.count + ·)).Pairwise (· < ·) :=
    List.pairwise_map.mpr ((k.visible_pairwise c).imp fun hlt => by omega)
  refine (m.visible_pairwise _).eq_of_mem_iff hordered fun i => ?_
  rw [mem_visible, List.mem_map]
  constructor
  · intro hvisible
    rcases Nat.lt_or_ge i l.count with hi | hi
    · have hstop := l.stop_mono (show i ≤ l.count - 1 by omega)
      rw [l.stop_last, ← h.stop_front hi] at hstop
      omega
    · obtain ⟨i, rfl⟩ := Nat.exists_eq_add_of_le hi
      rw [h.start_back, h.stop_back] at hvisible
      exact ⟨i, k.mem_visible.mpr (by omega), rfl⟩
  · rintro ⟨i, hi, rfl⟩
    rw [mem_visible] at hi
    rw [h.start_back, h.stop_back]
    omega

end Joins

/-- One segment by itself. -/
def single (n : Int) (hn : 0 < n) : Layout where
  lengths := [n]
  overlaps := []
  lengths_count := rfl
  lengths_pos := by simpa using hn
  overlaps_nonneg := by simp
  overlaps_le := by simp

theorem duration_single {n : Int} (hn : 0 < n) : (single n hn).duration = n := by
  simp [single, duration]

end Layout

namespace Timeline

section Parts

variable {α : Type}

/-- A layer behind `n` further segments. -/
def raised (n : Nat) (layer : Layer α) : Layer α := { layer with index := n + layer.index }

theorem mapM_raised {f g : Nat → Except Fault (Layer α)} {n : Nat} {is : List Nat}
    (h : ∀ i ∈ is, g (n + i) = f i >>= fun layer => .ok (raised n layer)) :
    (is.map (n + ·)).mapM g = is.mapM f >>= fun layers => .ok (layers.map (raised n)) := by
  induction is with
  | nil => rfl
  | cons i is ih =>
    rw [List.forall_mem_cons] at h
    rw [List.map_cons, List.mapM_cons, List.mapM_cons, h.1, ih h.2]
    cases f i with
    | error fault => rfl
    | ok layer => cases is.mapM f <;> rfl

variable [Arith α]

/-- A frame some frames later, behind `n` further segments. -/
def moved (n : Nat) (later : Int) (frame : ComposedFrame α) : Except Fault (ComposedFrame α) := do
  return {
    globalFrame := ← Arith.add frame.globalFrame (ofInt later)
    layers := frame.layers.map (raised n) }

variable [Spring.Animated α]

/-- From position `n` on, the timeline `u` has the segments of `t` and the transitions between them,
as many frames later as `later` says. -/
structure Holds (u t : Timeline α) (m l : Layout) (n : Nat) (later : Int) : Prop where
  whole_follows : u.Follows m
  whole_drives : u.drives = u.transitions.map fun tr => tr.drive u.fps
  part_follows : t.Follows l
  part_drives : t.drives = t.transitions.map fun tr => tr.drive t.fps
  fps : u.fps = t.fps
  count : n + l.count ≤ m.count
  segments : ∀ i < l.count, u.segments[n + i]? = t.segments[i]?
  transitions : ∀ i, i + 1 < l.count → u.transitions[n + i]? = t.transitions[i]?
  start : ∀ i < l.count, m.start (n + i) = l.start i + later

namespace Holds

variable [Arith.Whole α] {u t : Timeline α} {m l : Layout} {n : Nat} {later c : Int}
  (h : Holds u t m l n later) (hseen : m.visible (c + later) = (l.visible c).map (n + ·))

include h

theorem crossing_eq {i : Nat} (hi : i + 1 < l.count) :
    u.crossing (n + i) (ofInt (c + later)) = t.crossing i (ofInt c) := by
  have hcount := h.count
  refine crossing_congr h.part_follows h.part_drives h.whole_follows h.whole_drives h.fps hi
    (by omega) (h.transitions i hi) ?_
  rw [Nat.add_assoc, h.start _ hi]
  omega

include hseen

/-- A layer comes in and goes out together with the same neighbours, so it has the same effect. -/
theorem effectAt_eq {i : Nat} (hi : i ∈ l.visible c) :
    u.effectAt (n + i) (ofInt (c + later)) = t.effectAt i (ofInt c) := by
  have hmem : ∀ j, n + j ∈ m.visible (c + later) ↔ j ∈ l.visible c := by
    intro j
    rw [hseen, List.mem_map]
    constructor
    · rintro ⟨j', hj', heq⟩
      rwa [Nat.add_left_cancel heq] at hj'
    · exact fun hj => ⟨j, hj, rfl⟩
  rw [h.whole_follows.effectAt_eq h.whole_drives ((hmem i).mpr hi),
    h.part_follows.effectAt_eq h.part_drives hi]
  refine effectAmong_congr ?_ (fun hprev => ?_) (hmem (i + 1)) fun hnext => ?_
  · cases i with
    | zero =>
      refine iff_of_false ?_ (by omega)
      rintro ⟨hpos, hbelow⟩
      rw [hseen, List.mem_map] at hbelow
      omega
    | succ i =>
      rw [← Nat.add_assoc, Nat.add_sub_cancel, Nat.add_sub_cancel, hmem]
      exact and_congr_left' (iff_of_true (Nat.succ_pos _) (Nat.succ_pos _))
  · obtain ⟨j, rfl⟩ : ∃ j, i = j + 1 := ⟨i - 1, by omega⟩
    exact h.crossing_eq (l.lt_count_of_mem_visible hi)
  · exact h.crossing_eq (l.lt_count_of_mem_visible hnext)

theorem layerAt_eq {i : Nat} (hi : i ∈ l.visible c) :
    u.layerAt (ofInt (c + later)) (n + i) =
      t.layerAt (ofInt c) i >>= fun layer => .ok (raised n layer) := by
  have hcount := l.lt_count_of_mem_visible hi
  have hwhole := h.count
  have hlocal : c + later - m.start (n + i) = c - l.start i := by
    rw [h.start i hcount]
    omega
  obtain ⟨s, hs, -⟩ := h.part_follows.exists_segment hcount
  have hs' := (h.segments i hcount).trans hs
  rw [layerAt, layerAt, entryAt_eq_ok_iff.mpr hs, entryAt_eq_ok_iff.mpr hs', ok_bind, ok_bind,
    h.part_follows.entryAt_starts hcount, h.whole_follows.entryAt_starts (by omega), ok_bind,
    ok_bind, Arith.Whole.sub_ofInt, Arith.Whole.sub_ofInt, ok_bind, ok_bind, hlocal,
    h.effectAt_eq hseen hi]
  cases t.effectAt i (ofInt c) with
  | error fault => rfl
  | ok effect => cases s.scene (ofInt (c - l.start i)) <;> rfl

/-- Where the same segments are to be seen the whole shows the very frame of its part. -/
theorem frameAt_eq (hpart : l.clamp c = c) (hwhole : m.clamp (c + later) = c + later) :
    u.frameAt (ofInt (c + later)) = t.frameAt (ofInt c) >>= moved n later := by
  rw [frameAt, frameAt, h.part_follows.clampFrame_eq, h.whole_follows.clampFrame_eq, ok_bind,
    ok_bind, hpart, hwhole, h.part_follows.activeSegments_eq, h.whole_follows.activeSegments_eq,
    ok_bind, ok_bind, hpart, hwhole, hseen, mapM_raised fun i hi => h.layerAt_eq hseen hi]
  cases (l.visible c).mapM (t.layerAt (ofInt c)) with
  | error fault => rfl
  | ok layers =>
    simp only [ok_bind, pure_eq_ok, moved, Arith.Whole.add_ofInt]

end Holds

end Parts

/-! ## All of a timeline -/

section Build

variable [Spring.Animated Document] {fps name name' wholeName : Document}
  {t t' u : Timeline Document} {w : Transition Document}

/-- A single segment is a timeline wherever there is one at all. -/
theorem exists_build_single (name : Document) {s : Segment Document} (hs : (Item.segment s).IsWhole)
    (hfps : Arith.le fps (ofInt 0) = .ok false) :
    ∃ t, build [.segment s] fps name = .ok t ∧ t.segments = [s] ∧ t.duration = .ok s.length := by
  obtain ⟨n, hn, hlength⟩ := Item.isWhole_segment_iff.mp hs
  have hsegments : [s].map Segment.length = (Layout.single n hn).lengths.map ofInt := by
    rw [List.map_singleton, hlength]
    rfl
  have hbuild : build [.segment s] fps name = .ok _ :=
    build_eq_ok (Layout.single n hn) hfps (.last s) hsegments rfl
  refine ⟨_, hbuild, rfl, ?_⟩
  refine Eq.trans (Follows.duration_eq (l := Layout.single n hn) ⟨hsegments, rfl, rfl, rfl⟩) ?_
  rw [Layout.duration_single, hlength]

variable {front back : List (Item Document)}

/-- Timelines whose items are joined by a transition are both held by the whole. -/
theorem exists_holds (hfront : ∀ item ∈ front, item.IsWhole) (hback : ∀ item ∈ back, item.IsWhole)
    (hw : (Item.transition w).IsWhole) (ht : build front fps name = .ok t)
    (ht' : build back fps name' = .ok t')
    (hu : build (front ++ .transition w :: back) fps wholeName = .ok u) :
    ∃ (l k m : Layout) (d : Int), w.length = .int d ∧ 0 ≤ d ∧ l.Joins k m d ∧
      Holds u t m l 0 0 ∧ Holds u t' m k l.count (l.duration - d) := by
  have hitems : ∀ item ∈ front ++ .transition w :: back, item.IsWhole := by
    rw [List.forall_mem_append, List.forall_mem_cons]
    exact ⟨hfront, hw, hback⟩
  obtain ⟨d, hd, hlength⟩ := Item.isWhole_transition_iff.mp hw
  obtain ⟨l, hl, -, hlalternates, hlfps, -, hldrives⟩ := follows_of_build hfront ht
  obtain ⟨k, hk, -, hkalternates, hkfps, -, hkdrives⟩ := follows_of_build hback ht'
  obtain ⟨m, hm, -, hmalternates, hmfps, -, hmdrives⟩ := follows_of_build hitems hu
  obtain ⟨hsegments, htransitions⟩ := hmalternates.unique (hlalternates.append w hkalternates)
  have hinjective : Function.Injective (List.map (ofInt : Int → Document)) :=
    List.map_injective_iff.mpr fun _ _ heq => Document.int.inj heq
  have hjoins : l.Joins k m d := by
    constructor
    · apply hinjective
      rw [← hm.segments, hsegments, List.map_append, List.map_append, hl.segments, hk.segments]
    · apply hinjective
      rw [← hm.transitions, htransitions, List.map_append, List.map_append, List.map_cons,
        List.map_cons, hl.transitions, hk.transitions, hlength]
  have hcount := hl.segments_count
  have htransitionsCount : t.transitions.length + 1 = l.count := by
    rw [← hcount, hlalternates.count]
  refine ⟨l, k, m, d, hlength, hd, hjoins, ?_, ?_⟩
  · exact {
      whole_follows := hm
      whole_drives := by rw [hmdrives, hmfps]
      part_follows := hl
      part_drives := by rw [hldrives, hlfps]
      fps := hmfps.trans hlfps.symm
      count := by rw [hjoins.count_eq]; omega
      segments := fun i hi => by
        rw [Nat.zero_add, hsegments, List.getElem?_append_left (by omega)]
      transitions := fun i hi => by
        rw [Nat.zero_add, htransitions, List.getElem?_append_left (by omega)]
      start := fun i hi => by rw [Nat.zero_add, add_zero, hjoins.start_front hi] }
  · exact {
      whole_follows := hm
      whole_drives := by rw [hmdrives, hmfps]
      part_follows := hk
      part_drives := by rw [hkdrives, hkfps]
      fps := hmfps.trans hkfps.symm
      count := by rw [hjoins.count_eq]
      segments := fun i _ => by
        rw [hsegments, List.getElem?_append_right (by omega), hcount, Nat.add_sub_cancel_left]
      transitions := fun i _ => by
        rw [htransitions, List.getElem?_append_right (by omega), ← htransitionsCount,
          show t.transitions.length + 1 + i - t.transitions.length = i + 1 by omega,
          List.getElem?_cons_succ]
      start := fun i _ => hjoins.start_back i }

omit [Spring.Animated Document] in
/-- A frame that stays where it is. -/
theorem moved_zero {f : Int} {frame : ComposedFrame Document} (h : frame.globalFrame = .int f) :
    moved 0 0 frame = .ok frame := by
  have hadd : Arith.add frame.globalFrame (ofInt 0) = .ok frame.globalFrame := by
    rw [h]
    exact (Arith.Whole.add_ofInt f 0).trans (by rw [add_zero]; rfl)
  have hraised : frame.layers.map (raised 0) = frame.layers :=
    (List.map_congr_left fun layer _ => by rw [raised, Nat.zero_add]; rfl).trans (List.map_id _)
  rw [moved, hadd, hraised]
  rfl

omit [Spring.Animated Document] in
theorem Follows.frameAt_moved_zero {l : Layout} (h : t.Follows l) {f : Int}
    (hinside : l.clamp f = f) : t.frameAt (.int f) >>= moved 0 0 = t.frameAt (.int f) := by
  cases hframe : t.frameAt (.int f) with
  | error fault => rfl
  | ok frame =>
    have hglobal := (h.frameAt_eq_ok_iff.mp hframe).1
    rw [hinside] at hglobal
    exact moved_zero hglobal

variable {items : List (Item Document)} {s : Segment Document} {d n D : Int}

/-- What is put behind a timeline changes nothing in front of the window in which it comes in. -/
theorem frameAt_of_append (hitems : ∀ item ∈ items, item.IsWhole)
    (hw : (Item.transition w).IsWhole) (hs : (Item.segment s).IsWhole) (hd : w.length = .int d)
    (hn : s.length = .int n) (ht : build items fps name = .ok t) (hD : t.duration = .ok (.int D))
    (hu : build (items ++ [.transition w, .segment s]) fps wholeName = .ok u) :
    u.duration = .ok (.int (D + n - d)) ∧
      ∀ f, 0 ≤ f → f < D - d → u.frameAt (.int f) = t.frameAt (.int f) := by
  obtain ⟨t', ht', -, hn'⟩ := exists_build_single name hs (steps_of_build ht).1
  obtain ⟨l, k, m, d', hd', hd0, hjoins, hheld, hlast⟩ :=
    exists_holds hitems (by simpa using hs) hw ht ht' hu
  obtain rfl : d' = d := Document.int.inj (hd'.symm.trans hd)
  obtain rfl : l.duration = D := hheld.part_follows.duration_unique hD
  obtain rfl : k.duration = n := hlast.part_follows.duration_unique (hn'.trans (congrArg _ hn))
  have hduration := hjoins.duration_eq
  have hlonger := k.duration_pos
  refine ⟨by rw [hheld.whole_follows.duration_eq, hduration]; rfl, fun f hf hbefore => ?_⟩
  have hinside : l.clamp f = f := l.clamp_eq_self hf (by omega)
  have hseen : m.visible (f + 0) = (l.visible f).map (0 + ·) := by
    simp [hjoins.visible_front hbefore]
  have hframe := hheld.frameAt_eq hseen hinside (m.clamp_eq_self (by omega) (by omega))
  rw [add_zero] at hframe
  exact hframe.trans (hheld.part_follows.frameAt_moved_zero hinside)

/-- What is put in front of a timeline only moves what is behind the window in which it goes
out. -/
theorem frameAt_of_prepend (hitems : ∀ item ∈ items, item.IsWhole)
    (hw : (Item.transition w).IsWhole) (hs : (Item.segment s).IsWhole) (hd : w.length = .int d)
    (hn : s.length = .int n) (ht : build items fps name = .ok t) (hD : t.duration = .ok (.int D))
    (hu : build (.segment s :: .transition w :: items) fps wholeName = .ok u) :
    u.duration = .ok (.int (D + n - d)) ∧
      ∀ f, d ≤ f → f < D →
        u.frameAt (.int (f + (n - d))) = t.frameAt (.int f) >>= moved 1 (n - d) := by
  obtain ⟨t', ht', hsingle, hn'⟩ := exists_build_single name hs (steps_of_build ht).1
  obtain ⟨l, k, m, d', hd', hd0, hjoins, hfirst, hheld⟩ :=
    exists_holds (by simpa using hs) hitems hw ht' ht hu
  obtain rfl : d' = d := Document.int.inj (hd'.symm.trans hd)
  obtain rfl : k.duration = D := hheld.part_follows.duration_unique hD
  obtain rfl : l.duration = n := hfirst.part_follows.duration_unique (hn'.trans (congrArg _ hn))
  have hcount : l.count = 1 := by
    rw [← hfirst.part_follows.segments_count, hsingle, List.length_singleton]
  rw [hcount] at hheld
  have hduration := hjoins.duration_eq
  have hlonger := l.duration_pos
  refine ⟨?_, fun f hafter hf => ?_⟩
  · rw [hheld.whole_follows.duration_eq, hduration, add_comm l.duration]
    rfl
  · have hseen := hjoins.visible_back hafter
    rw [hcount] at hseen
    exact hheld.frameAt_eq hseen (k.clamp_eq_self (by omega) hf)
      (m.clamp_eq_self (by omega) (by omega))

/-- A transition and a segment that are put to an end of a timeline lengthen it by what the segment
lasts beyond the transition. Outside of the new window every frame is the one that was to be seen
before; where the segment is in front it is as much later, and all layers are one segment higher. -/
theorem edits_are_local (hitems : ∀ item ∈ items, item.IsWhole) (hw : (Item.transition w).IsWhole)
    (hs : (Item.segment s).IsWhole) (hd : w.length = .int d) (hn : s.length = .int n)
    (hbuild : build items fps name = .ok t) (hD : t.duration = .ok (.int D)) (newName : Document) :
    (∀ u, build (items ++ [.transition w, .segment s]) fps newName = .ok u →
      u.duration = .ok (.int (D + n - d)) ∧
        ∀ f, 0 ≤ f → f < D - d → u.frameAt (.int f) = t.frameAt (.int f)) ∧
    ∀ u, build (.segment s :: .transition w :: items) fps newName = .ok u →
      u.duration = .ok (.int (D + n - d)) ∧
        ∀ f, d ≤ f → f < D →
          u.frameAt (.int (f + (n - d))) = t.frameAt (.int f) >>= moved 1 (n - d) :=
  ⟨fun _ hu => frameAt_of_append hitems hw hs hd hn hbuild hD hu,
    fun _ hu => frameAt_of_prepend hitems hw hs hd hn hbuild hD hu⟩

end Build

/-- The transition covers the whole of the segment that it joins to the new one. -/
theorem edits_are_local_shortMiddle :
    (∀ item ∈ shortMiddle, item.IsWhole) ∧ (Item.transition (blend 6)).IsWhole ∧
      (Item.segment (counting 8 "new")).IsWhole ∧
      ∃ t behind inFront, build shortMiddle (.int 30) (.text "cards") = .ok t ∧
        t.duration = .ok (.int 9) ∧
        build (shortMiddle ++ [.transition (blend 6), .segment (counting 8 "new")]) (.int 30)
          (.text "longer") = .ok behind ∧
        build (.segment (counting 8 "new") :: .transition (blend 6) :: shortMiddle) (.int 30)
          (.text "longer") = .ok inFront ∧
        behind.duration = .ok (.int 11) ∧ behind.frameAt (.int 2) = t.frameAt (.int 2) ∧
        inFront.duration = .ok (.int 11) ∧
        inFront.frameAt (.int 8) = t.frameAt (.int 6) >>= moved 1 2 := by
  have hw : (Item.transition (blend 6)).IsWhole :=
    Item.isWhole_transition_iff.mpr ⟨6, by decide, rfl⟩
  have hs : (Item.segment (counting 8 "new")).IsWhole :=
    Item.isWhole_segment_iff.mpr ⟨8, by decide, rfl⟩
  obtain ⟨t, ht⟩ : ∃ t, build shortMiddle (.int 30) (.text "cards") = .ok t := ⟨_, rfl⟩
  obtain ⟨behind, hbehind⟩ : ∃ u, build (shortMiddle ++
      [.transition (blend 6), .segment (counting 8 "new")]) (.int 30) (.text "longer") = .ok u :=
    ⟨_, rfl⟩
  obtain ⟨inFront, hinFront⟩ : ∃ u, build (.segment (counting 8 "new") ::
      .transition (blend 6) :: shortMiddle) (.int 30) (.text "longer") = .ok u := ⟨_, rfl⟩
  have hD : t.duration = .ok (.int 9) := by
    cases ht
    rfl
  obtain ⟨happended, hprepended⟩ :=
    edits_are_local shortMiddle_isWhole hw hs rfl rfl ht hD (.text "longer")
  obtain ⟨hlonger, hbefore⟩ := happended behind hbehind
  obtain ⟨hlonger', hafter⟩ := hprepended inFront hinFront
  exact ⟨shortMiddle_isWhole, hw, hs, t, behind, inFront, ht, hD, hbehind, hinFront, hlonger,
    hbefore 2 (by decide) (by decide), hlonger', hafter 6 (by decide) (by decide)⟩

end Timeline

end Showreel
