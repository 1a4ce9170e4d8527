import Showreel.Proofs.Timeline.Accepted

/-!
# What a timeline shows

A timeline finds the segments to be seen by halving its starts and walking back over its ends. These
laws say that both together find just the segments that have started and not yet ended, that a frame
has one layer for each of them, and that a run through all frames shows every segment from its first
frame to its last. Whether scenes and effects yield a value is left to them.
-/

namespace Showreel.Timeline

open Arith (ofInt)

variable {α : Type} [Arith α]

/-- The frames at which a segment is shown in a list of composed frames, as the segment counts
them. -/
def localFrames (frames : List (ComposedFrame α)) (i : Nat) : List α :=
  frames.flatMap fun frame =>
    (frame.layers.filter fun layer => layer.index = i).map Layer.localFrame

section Follows

variable [Arith.Whole α] {t : Timeline α} {l : Layout}

omit [Arith.Whole α] in
theorem Follows.segments_count (h : t.Follows l) : t.segments.length = l.count := by
  have hlength := congrArg List.length h.segments
  simpa [Layout.count] using hlength

omit [Arith.Whole α] in
theorem Follows.entryAt_starts (h : t.Follows l) {i : Nat} (hi : i < l.count) :
    entryAt t.starts i = .ok (ofInt (l.start i)) := by
  rw [entryAt_eq_ok_iff, h.starts, Layout.starts, List.getElem?_map, List.getElem?_map,
    List.getElem?_range hi]
  rfl

theorem Follows.duration_eq (h : t.Follows l) : t.duration = .ok (ofInt l.duration) := by
  simp [duration, h.segments, h.transitions, Layout.duration]

theorem Follows.clampFrame_eq (h : t.Follows l) (f : Int) :
    t.clampFrame (ofInt f) = .ok (ofInt (l.clamp f)) := by
  simp [clampFrame, h.duration_eq, Layout.clamp]

/-- Halving the starts counts the segments that have started. -/
theorem Follows.countUpTo_starts (h : t.Follows l) (c : Int) :
    ∃ k ≤ l.count, Arith.countUpTo t.starts (ofInt c) = .ok k ∧
      ∀ i < l.count, l.start i ≤ c ↔ i < k := by
  have hcount : t.starts.length = l.count := by simp [h.starts, Layout.starts]
  have hlt : ∀ (i : Nat) b, t.starts[i]? = some b →
      Arith.lt (ofInt c) b = .ok (decide (c < l.start i)) := by
    intro i b hb
    simp only [h.starts, Layout.starts, List.getElem?_map, Option.map_eq_some_iff] at hb
    obtain ⟨n, ⟨j, hj, rfl⟩, rfl⟩ := hb
    obtain ⟨_, hj⟩ := List.getElem?_eq_some_iff.mp hj
    rw [List.getElem_range] at hj
    subst hj
    exact Arith.Whole.lt_ofInt _ _
  have hmono : ∀ i j, i ≤ j → c < l.start i → c < l.start j :=
    fun i j hij hi => hi.trans_le (l.start_mono hij)
  obtain ⟨k, hk, heq, hiff⟩ := Arith.countUpTo_eq hlt hmono
  rw [hcount] at hk hiff
  refine ⟨k, hk, heq, fun i hi => ?_⟩
  have hi' := hiff i hi
  omega

/-- Walking back passes over segments that have not ended and stops behind one that has. -/
theorem Follows.walkBack_ends (h : t.Follows l) (c : Int) {last : Nat} (hlast : last ≤ l.count) :
    ∃ first ≤ last, walkBack t.ends (ofInt c) last = .ok first ∧
      (∀ i, first ≤ i → i < last → c < l.stop i) ∧ (0 < first → l.stop (first - 1) ≤ c) := by
  induction last with
  | zero => exact ⟨0, le_rfl, rfl, by omega, by omega⟩
  | succ i ih =>
    have hend : t.ends[i]? = some (ofInt (l.stop i)) := by
      rw [h.ends, Layout.stops, List.getElem?_map, List.getElem?_map,
        List.getElem?_range (by omega)]
      rfl
    rw [walkBack, hend]
    simp only [Arith.Whole.lt_ofInt, ok_bind, decide_eq_true_eq]
    by_cases hopen : c < l.stop i
    · obtain ⟨first, hfirst, heq, hpassed, hstopped⟩ := ih (by omega)
      refine ⟨first, by omega, by simpa [hopen] using heq, fun j hj hj' => ?_, hstopped⟩
      rcases Nat.lt_or_ge j i with hji | hji
      · exact hpassed j hj hji
      · obtain rfl : j = i := by omega
        exact hopen
    · exact ⟨i + 1, le_rfl, by simp [hopen], by omega, fun _ => by simpa using hopen⟩

/-- The segments found are those that have started and not ended, in order. -/
theorem Follows.activeSegments_eq (h : t.Follows l) (f : Int) :
    t.activeSegments (ofInt f) = .ok (l.visible (l.clamp f)) := by
  have hc := l.clamp_nonneg f
  have hend := l.clamp_lt_duration f
  obtain ⟨k, hk, hcount, hstarted⟩ := h.countUpTo_starts (l.clamp f)
  have hpos : 0 < k := (hstarted 0 l.count_pos).mp (by rwa [l.start_zero])
  obtain ⟨first, hfirst, hwalk, hopen, hclosed⟩ :=
    h.walkBack_ends (l.clamp f) (show k - 1 ≤ l.count by omega)
  have hlast : l.clamp f < l.stop (k - 1) := by
    refine l.lt_stop_of_lt_start_succ (by omega) hend fun hnext => ?_
    have h := hstarted (k - 1 + 1) hnext
    omega
  have hrun : ∀ i, first ≤ i ∧ i ≤ k - 1 ↔ l.start i ≤ l.clamp f ∧ l.clamp f < l.stop i := by
    intro i
    constructor
    · rintro ⟨hi, hi'⟩
      refine ⟨(hstarted i (by omega)).mpr (by omega), ?_⟩
      rcases Nat.lt_or_ge i (k - 1) with hik | hik
      · exact hopen i hi hik
      · obtain rfl : i = k - 1 := by omega
        exact hlast
    · rintro ⟨hstart, hstop⟩
      have hk' := (hstarted i (l.lt_count_of_lt_stop hstart hstop)).mp hstart
      refine ⟨?_, by omega⟩
      by_contra hi
      have hmono := l.stop_mono (show i ≤ first - 1 by omega)
      have hfirst' := hclosed (by omega)
      omega
  simp [activeSegments, h.clampFrame_eq, hcount, hwalk, l.visible_eq_range' hrun]

omit [Arith.Whole α] in
/-- The segments found are neighbours. -/
theorem exists_range'_of_activeSegments {frame : α} {active : List Nat}
    (h : t.activeSegments frame = .ok active) :
    ∃ first, active = List.range' first active.length := by
  unfold activeSegments at h
  obtain ⟨c, -, h⟩ := bind_eq_ok_iff.mp h
  obtain ⟨k, -, h⟩ := bind_eq_ok_iff.mp h
  obtain ⟨first, -, h⟩ := bind_eq_ok_iff.mp h
  cases h
  exact ⟨first, by rw [List.length_range']⟩

/-! ## Layers -/

/-- A layer is there if the effect and the scene yield one; its segment counts frames from its own
start. -/
theorem Follows.layerAt_eq_ok_iff (h : t.Follows l) {c : Int} {i : Nat} {layer : Layer α} :
    t.layerAt (ofInt c) i = .ok layer ↔
      ∃ s, t.segments[i]? = some s ∧ layer.index = i ∧ layer.name = s.name ∧
        layer.localFrame = ofInt (c - l.start i) ∧ t.effectAt i (ofInt c) = .ok layer.effect ∧
        s.scene (ofInt (c - l.start i)) = .ok layer.state := by
  cases hs : t.segments[i]? with
  | none => simp [layerAt, entryAt, hs]
  | some s =>
    have hi : i < l.count := by
      rw [← h.segments_count]
      exact (List.getElem?_eq_some_iff.mp hs).1
    unfold layerAt
    simp only [entryAt_eq_ok_iff.mpr hs, h.entryAt_starts hi, Arith.Whole.sub_ofInt, ok_bind,
      pure_eq_ok, bind_eq_ok_iff, Except.ok.injEq, Option.some.injEq, exists_eq_left']
    constructor
    · rintro ⟨effect, heffect, state, hstate, rfl⟩
      exact ⟨rfl, rfl, rfl, heffect, hstate⟩
    · rintro ⟨hindex, hname, hlocal, heffect, hstate⟩
      refine ⟨layer.effect, heffect, layer.state, hstate, ?_⟩
      cases layer
      simp_all

/-- A composed frame has the layers of the segments to be seen, in order. -/
theorem Follows.frameAt_eq_ok_iff (h : t.Follows l) {f : Int} {frame : ComposedFrame α} :
    t.frameAt (ofInt f) = .ok frame ↔
      frame.globalFrame = ofInt (l.clamp f) ∧
        List.Forall₂ (fun i layer => t.layerAt (ofInt (l.clamp f)) i = .ok layer)
          (l.visible (l.clamp f)) frame.layers := by
  have hclamp := l.clamp_eq_self (l.clamp_nonneg f) (l.clamp_lt_duration f)
  simp only [frameAt, h.clampFrame_eq, h.activeSegments_eq, hclamp, ok_bind, pure_eq_ok,
    bind_eq_ok_iff, Except.ok.injEq, mapM_eq_ok_iff]
  constructor
  · rintro ⟨layers, hlayers, rfl⟩
    exact ⟨rfl, hlayers⟩
  · rintro ⟨hglobal, hlayers⟩
    refine ⟨frame.layers, hlayers, ?_⟩
    cases frame
    simp_all

/-- The layers of a frame stand in the order of the segments to be seen, each at a frame of its own
segment. -/
theorem Follows.layers_of_frameAt (h : t.Follows l) {f : Int} {frame : ComposedFrame α}
    (hframe : t.frameAt (ofInt f) = .ok frame) :
    List.Forall₂ (fun i layer => (0 ≤ l.clamp f - l.start i ∧ l.clamp f - l.start i < l.length i) ∧
        layer.index = i ∧ layer.localFrame = ofInt (l.clamp f - l.start i))
      (l.visible (l.clamp f)) frame.layers := by
  rw [List.forall₂_and_left]
  refine ⟨fun i hi => ?_, (h.frameAt_eq_ok_iff.mp hframe).2.imp fun i layer hlayer => ?_⟩
  · rw [Layout.mem_visible, Layout.stop] at hi
    omega
  · obtain ⟨s, -, hindex, -, hlocal, -⟩ := h.layerAt_eq_ok_iff.mp hlayer
    exact ⟨hindex, hlocal⟩

/-- A frame is composed exactly if the effects and the scenes of all segments to be seen yield a
value. -/
theorem Follows.exists_frameAt_iff (h : t.Follows l) (f : Int) :
    (∃ frame, t.frameAt (ofInt f) = .ok frame) ↔
      ∀ i ∈ l.visible (l.clamp f), (∃ effect, t.effectAt i (ofInt (l.clamp f)) = .ok effect) ∧
        ∃ s state, t.segments[i]? = some s ∧
          s.scene (ofInt (l.clamp f - l.start i)) = .ok state := by
  have hlayer : ∀ i, (∃ layer, t.layerAt (ofInt (l.clamp f)) i = .ok layer) ↔
      (∃ effect, t.effectAt i (ofInt (l.clamp f)) = .ok effect) ∧
        ∃ s state, t.segments[i]? = some s ∧
          s.scene (ofInt (l.clamp f - l.start i)) = .ok state := by
    intro i
    constructor
    · rintro ⟨layer, hlayer⟩
      obtain ⟨s, hs, -, -, -, heffect, hstate⟩ := h.layerAt_eq_ok_iff.mp hlayer
      exact ⟨⟨_, heffect⟩, s, _, hs, hstate⟩
    · rintro ⟨⟨effect, heffect⟩, s, state, hs, hstate⟩
      exact ⟨⟨i, s.name, _, effect, state⟩,
        h.layerAt_eq_ok_iff.mpr ⟨s, hs, rfl, rfl, rfl, heffect, hstate⟩⟩
  simp only [← hlayer, ← exists_mapM_eq_ok_iff, h.frameAt_eq_ok_iff, mapM_eq_ok_iff]
  constructor
  · rintro ⟨frame, -, hlayers⟩
    exact ⟨frame.layers, hlayers⟩
  · rintro ⟨layers, hlayers⟩
    exact ⟨⟨_, layers⟩, rfl, hlayers⟩

/-! ## Running through all frames -/

omit [Arith α] [Arith.Whole α] in
private theorem map_localFrame_filter {number : Nat → α} {is : List Nat} {layers : List (Layer α)}
    (hlayers :
      List.Forall₂ (fun i layer => layer.index = i ∧ layer.localFrame = number i) is layers)
    (i : Nat) :
    (layers.filter fun layer => layer.index = i).map Layer.localFrame =
      List.replicate (is.count i) (number i) := by
  induction hlayers with
  | nil => rfl
  | @cons j layer is layers hlayer _ ih =>
    obtain ⟨rfl, hlocal⟩ := hlayer
    by_cases hj : layer.index = i
    · simp [hj, hlocal, ih, List.replicate_succ]
    · simp [hj, ih]

/-- A frame shows a segment at one frame of its own if the segment is to be seen, else not at
all. -/
theorem Follows.localFrames_cons (h : t.Follows l) {f : Int} {frame : ComposedFrame α}
    (hframe : t.frameAt (ofInt f) = .ok frame) (frames : List (ComposedFrame α)) (i : Nat) :
    localFrames (frame :: frames) i =
      (if i ∈ l.visible (l.clamp f) then [ofInt (l.clamp f - l.start i)] else []) ++
        localFrames frames i := by
  have hlayers := (h.layers_of_frameAt hframe).imp fun _ _ hlayer => hlayer.2
  have hnodup : (l.visible (l.clamp f)).Nodup := (l.visible_pairwise _).imp ne_of_lt
  rw [localFrames, List.flatMap_cons, map_localFrame_filter hlayers]
  congr 1
  split
  case isTrue hi => rw [List.count_eq_one_of_mem hnodup hi, List.replicate_one]
  case isFalse hi => rw [List.count_eq_zero_of_not_mem hi, List.replicate_zero]

/-- Frames inside the timeline show a segment at the places where it is to be seen, in order. -/
theorem Follows.localFrames_of_mapM (h : t.Follows l) {fs : List Nat}
    {frames : List (ComposedFrame α)} (hfs : ∀ f ∈ fs, (f : Int) < l.duration)
    (hframes : fs.mapM (fun f : Nat => t.frameAt (ofInt f)) = .ok frames) (i : Nat) :
    localFrames frames i =
      ((fs.filter fun f : Nat => decide (i ∈ l.visible f)).map
        fun f : Nat => (f : Int) - l.start i).map ofInt := by
  induction mapM_eq_ok_iff.mp hframes with
  | nil => rfl
  | @cons f frame fs frames hframe hrest ih =>
    have hclamp : l.clamp f = f := l.clamp_eq_self (Int.natCast_nonneg f) (hfs f (by simp))
    have htail := ih (fun g hg => hfs g (by simp [hg])) (mapM_eq_ok_iff.mpr hrest)
    rw [h.localFrames_cons hframe, hclamp, htail]
    by_cases hi : i ∈ l.visible f
    · simp only [hi, ↓reduceIte, List.filter_cons, decide_true, List.map_cons,
        List.singleton_append]
    · simp only [hi, ↓reduceIte, List.filter_cons, decide_false, Bool.false_eq_true,
        List.nil_append]

/-- A run through all frames of a timeline shows every segment from its first frame to its last. -/
theorem Follows.localFrames_eq (h : t.Follows l) {frames : List (ComposedFrame α)}
    (hframes : (List.range l.duration.toNat).mapM (fun f : Nat => t.frameAt (ofInt f)) = .ok frames)
    {i : Nat} (hi : i < l.count) :
    localFrames frames i = (List.range (l.length i).toNat).map fun k : Nat => ofInt k := by
  have hinside : ∀ f ∈ List.range l.duration.toNat, (f : Int) < l.duration := by
    intro f hf
    rw [List.mem_range] at hf
    omega
  rw [h.localFrames_of_mapM hinside hframes, l.map_filter_mem_visible hi, List.map_map]
  rfl

end Follows

theorem Follows.duration_unique {t : Timeline Document} {l : Layout} (h : t.Follows l) {n : Int}
    (hn : t.duration = .ok (.int n)) : l.duration = n :=
  Document.int.inj (Except.ok.inj (h.duration_eq.symm.trans hn))

/-! ## All of a timeline -/

/-- The segments to be seen at a frame are those that have started and not ended, a run of
neighbours that is never empty; a composed frame has one layer for each, at the segment's own frame.
So a run through all frames shows every segment from its first frame to its last. -/
theorem segments_shown_in_full [Spring.Animated Document] {items : List (Item Document)}
    (hitems : ∀ item ∈ items, item.IsWhole) {fps name : Document} {t : Timeline Document}
    (hbuild : build items fps name = .ok t) :
    ∃ l : Layout, t.Follows l ∧ l.starts.Pairwise (· ≤ ·) ∧ l.stops.Pairwise (· ≤ ·) ∧
      t.duration = .ok (.int l.duration) ∧ l.duration = l.stop (l.count - 1) ∧
      l.duration = l.lengths.sum - l.overlaps.sum ∧ 1 ≤ l.duration ∧
      (∀ f c : Int, c = max 0 (min f (l.duration - 1)) →
        t.clampFrame (.int f) = .ok (.int c) ∧
        ∃ active, t.activeSegments (.int f) = .ok active ∧
          active = (List.range l.count).filter (fun i => l.start i ≤ c ∧ c < l.stop i) ∧
          active ≠ [] ∧ (∃ first, active = List.range' first active.length) ∧
          ((∃ frame, t.frameAt (.int f) = .ok frame) ↔
            ∀ i ∈ active, (∃ effect, t.effectAt i (.int c) = .ok effect) ∧
              ∃ s state, t.segments[i]? = some s ∧ s.scene (.int (c - l.start i)) = .ok state) ∧
          ∀ frame, t.frameAt (.int f) = .ok frame → frame.globalFrame = .int c ∧
            List.Forall₂ (fun i layer => (0 ≤ c - l.start i ∧ c - l.start i < l.length i) ∧
                layer.index = i ∧ layer.localFrame = .int (c - l.start i))
              active frame.layers) ∧
      ∀ i < l.count,
        ((List.range l.duration.toNat).filter fun f : Nat => decide (i ∈ l.visible f)).map
            (fun f : Nat => (f : Int) - l.start i) =
          (List.range (l.length i).toNat).map (fun k : Nat => (k : Int)) ∧
        ∀ frames,
          (List.range l.duration.toNat).mapM (fun f : Nat => t.frameAt (.int f)) = .ok frames →
          localFrames frames i = (List.range (l.length i).toNat).map fun k : Nat => .int k := by
  obtain ⟨l, h, -⟩ := follows_of_build hitems hbuild
  refine ⟨l, h, l.starts_pairwise, l.stops_pairwise, h.duration_eq, l.stop_last.symm, rfl,
    l.duration_pos, ?_, fun i hi => ⟨l.map_filter_mem_visible hi, fun frames hframes => ?_⟩⟩
  · rintro f c rfl
    refine ⟨h.clampFrame_eq f, l.visible (l.clamp f), h.activeSegments_eq f, rfl, ?_, ?_,
      h.exists_frameAt_iff f, fun frame hframe => ⟨?_, h.layers_of_frameAt hframe⟩⟩
    · exact l.visible_ne_nil (l.clamp_nonneg f) (l.clamp_lt_duration f)
    · exact exists_range'_of_activeSegments (h.activeSegments_eq f)
    · exact (h.frameAt_eq_ok_iff.mp hframe).1
  · exact h.localFrames_eq hframes hi

/-- A segment of some length that shows its own frames. -/
def counting (length : Int) (name : String) : Segment Document :=
  { length := .int length, scene := fun frame => .ok (.number frame), name := .text name }

/-- A blend of some length. -/
def blend (length : Int) : Transition Document :=
  { length := .int length, presentation := .known .crossfade, easing := Easing.linear.apply }

/-- A segment of three frames that both of its neighbours overlap whole. -/
def shortMiddle : List (Item Document) :=
  let scene : Document → Except Fault (Snapshot Document) := fun frame => .ok (.number frame)
  let way : Transition Document :=
    { length := .int 3, presentation := .known .crossfade, easing := Easing.linear.apply }
  [.segment { length := .int 6, scene, name := .text "first" }, .transition way,
    .segment { length := .int 3, scene, name := .text "middle" }, .transition way,
    .segment { length := .int 6, scene, name := .text "last" }]

theorem shortMiddle_isWhole : ∀ item ∈ shortMiddle, item.IsWhole := by
  simp only [shortMiddle, List.forall_mem_cons, Item.isWhole_segment_iff,
    Item.isWhole_transition_iff]
  exact ⟨⟨6, by decide, rfl⟩, ⟨3, by decide, rfl⟩, ⟨3, by decide, rfl⟩, ⟨3, by decide, rfl⟩,
    ⟨6, by decide, rfl⟩, by simp⟩

theorem segments_shown_in_full_shortMiddle :
    (∀ item ∈ shortMiddle, item.IsWhole) ∧
      ∃ t, build shortMiddle (.int 30) (.text "cards") = .ok t ∧
        ∃ l, t.Follows l ∧ ∀ f : Int, ∃ active, t.activeSegments (.int f) = .ok active ∧
          active = l.visible (max 0 (min f (l.duration - 1))) ∧ active ≠ [] := by
  obtain ⟨t, hbuild⟩ : ∃ t, build shortMiddle (.int 30) (.text "cards") = .ok t := ⟨_, rfl⟩
  refine ⟨shortMiddle_isWhole, t, hbuild, ?_⟩
  obtain ⟨l, h, -, -, -, -, -, -, hframes, -⟩ := segments_shown_in_full shortMiddle_isWhole hbuild
  refine ⟨l, h, fun f => ?_⟩
  obtain ⟨-, active, hactive, heq, hne, -⟩ := hframes f _ rfl
  exact ⟨active, hactive, heq, hne⟩

end Showreel.Timeline
