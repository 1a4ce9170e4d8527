import Showreel.Proofs.Timeline.Windows
import Showreel.Sampling

/-!
# What sampling asks of springs

Composing a frame asks the scenes that are to be seen for their states and the transitions in whose
windows the frame lies for their effects. An easing always answers there; a spring need not. So
whether frames can be sampled is told by what the scenes and the springs of transitions are asked
for at them, and nothing else stops it.
-/

namespace Showreel

/-! ## Sampling places -/

namespace Places

variable {β : Type} (visit : Int → Except Fault β)

theorem visitFrom_eq (step : Int) (count : Nat) (place : Int) (visited : List β) :
    visitFrom visit step count place visited = (do
      return visited.reverse ++
        (← ((List.range count).map fun k : Nat => place + k * step).mapM visit)) := by
  induction count generalizing place visited with
  | zero => simp [visitFrom]
  | succ count ih =>
    have hplaces : (List.range (count + 1)).map (fun k : Nat => place + k * step) =
        place :: (List.range count).map fun k : Nat => place + step + k * step := by
      rw [List.range_succ_eq_map, List.map_cons, List.map_map]
      congr 1
      · simp
      · refine List.map_congr_left fun k _ => ?_
        simp only [Function.comp_apply, Nat.succ_eq_add_one]
        push_cast
        rw [add_mul, one_mul]
        omega
    rw [visitFrom, hplaces, List.mapM_cons]
    simp only [ih, bind_assoc, pure_bind, List.reverse_cons, List.append_assoc,
      List.singleton_append]

theorem mapM_eq (p : Places) : p.mapM visit = p.toList.mapM visit := by
  rw [mapM, visitFrom_eq, toList, List.reverse_nil]
  simp only [List.nil_append, bind_pure]

/-- The places of a range from zero on are the multiples of its step. -/
theorem toList_ofRange {k : Nat} (hk : 0 < k) (stop : Int) : ∃ p, ofRange 0 stop k = .ok p ∧
    p.toList = ((List.range stop.toNat).filter (k ∣ ·)).map fun f : Nat => (f : Int) := by
  have hk' : (0 : Int) < k := by omega
  have hcount : ∀ i : Nat, i < ((stop + k - 1) / k).toNat ↔ i * k < stop.toNat := by
    intro i
    have hle := Int.le_ediv_iff_mul_le (a := i + 1) (b := stop + k - 1) hk'
    rw [add_mul, one_mul] at hle
    have hcast : ((i * k : Nat) : Int) = i * k := Int.natCast_mul i k
    omega
  refine ⟨{ start := 0, step := k, count := ((stop + k - 1) / k).toNat }, ?_, ?_⟩
  · simp [ofRange, hk, hk.ne']
  · refine List.Pairwise.eq_of_mem_iff (r := (· < ·)) ?_ ?_ fun x => ?_
    · refine List.pairwise_map.mpr (List.pairwise_lt_range.imp fun h => ?_)
      rw [zero_add, zero_add]
      exact mul_lt_mul_of_pos_right (by omega) hk'
    · refine List.pairwise_map.mpr (List.Pairwise.filter _ (List.pairwise_lt_range.imp fun h => ?_))
      omega
    · simp only [toList, List.mem_map, List.mem_range, List.mem_filter, decide_eq_true_eq, zero_add]
      constructor
      · rintro ⟨i, hi, rfl⟩
        exact ⟨i * k, ⟨(hcount i).mp hi, Dvd.intro_left i rfl⟩, by push_cast; rfl⟩
      · rintro ⟨f, ⟨hf, i, rfl⟩, rfl⟩
        exact ⟨i, (hcount i).mpr (by rwa [Nat.mul_comm]), by push_cast; exact Int.mul_comm _ _⟩

end Places

/-- A transition whose presentation is known and whose easing takes every double. -/
structure Transition.IsSmooth (tr : Transition Document) : Prop where
  presentation : ∃ p, tr.presentation = .known p
  easing : ∀ x, ∃ y, tr.easing (.double x) = .ok (.double y)

namespace Timeline

open Arith (ofInt)

/-! ## Counts and samples -/

section Samples

variable {t : Timeline Document} {l : Layout} (h : t.Follows l)

include h

/-- The frames are counted if their number fits into 63 bits. -/
theorem Follows.frameCount_eq : t.frameCount =
    if l.duration < 2 ^ 63 then .ok l.duration.toNat else .error .overflow := by
  have hindex : (ofInt l.duration : Document).index = .ok l.duration := rfl
  have hpos := l.duration_pos
  have hlimit : Int.pow 2 63 = 2 ^ 63 := rfl
  unfold frameCount
  rw [h.duration_eq, ok_bind, hindex, ok_bind, if_neg (by omega), hlimit]
  by_cases hroom : l.duration < 2 ^ 63
  · rw [if_neg (by omega), if_pos hroom, pure_eq_ok]
  · rw [if_pos (by omega), if_neg hroom]

theorem Follows.sampleFrames_eq {k : Nat} (hk : 0 < k) :
    t.sampleFrames (.int 0) none (.int k) =
      (((List.range l.duration.toNat).filter (k ∣ ·)).map fun f : Nat => (f : Int)).mapM
        fun place => t.frameAt (ofInt place) := by
  obtain ⟨p, hp, hplaces⟩ := Places.toList_ofRange hk l.duration
  have hsample : t.sampleFrames (.int 0) none (.int k) = t.duration >>= fun stop => stop.index >>=
      fun stop => Places.ofRange 0 stop k >>= fun places =>
        places.mapM fun place => t.frameAt (ofInt place) := rfl
  have hindex : (ofInt l.duration : Document).index = .ok l.duration := rfl
  rw [hsample, h.duration_eq, ok_bind, hindex, ok_bind, hp, ok_bind, Places.mapM_eq, hplaces]

/-- The samples are the frames themselves, in order. -/
theorem Follows.globalFrames_of_sampleFrames {k : Nat} (hk : 0 < k)
    {frames : List (ComposedFrame Document)}
    (hframes : t.sampleFrames (.int 0) none (.int k) = .ok frames) :
    frames.map ComposedFrame.globalFrame =
      ((List.range l.duration.toNat).filter (k ∣ ·)).map fun f : Nat => .int f := by
  rw [h.sampleFrames_eq hk, mapM_eq_ok_iff, List.forall₂_map_left_iff] at hframes
  have hplaces := (List.forall₂_and_left _ _).mpr ⟨fun f hf => List.mem_of_mem_filter hf, hframes⟩
  rw [eq_comm, ← List.forall₂_eq_eq_eq, List.forall₂_map_left_iff, List.forall₂_map_right_iff]
  refine hplaces.imp fun f frame hframe => ?_
  have hf := List.mem_range.mp hframe.1
  rw [(h.frameAt_eq_ok_iff.mp hframe.2).1, l.clamp_eq_self (Int.natCast_nonneg f) (by omega)]
  rfl

end Samples

/-! ## Transitions -/

/-- A spring is asked for its progress; an easing always has it. -/
def Window.asked (w : Window Document) : List (Except Fault Document) :=
  match w.drive with
  | .easing _ => []
  | .spring _ => [w.drive.progress w.transition.length w.offset]

/-- What the transition between a segment and the next one asks of its spring at a frame. -/
def crossingAsked (t : Timeline Document) (j : Nat) (c : Int) : List (Except Fault Document) :=
  match t.windowAt j (.int c) with
  | .ok w => w.asked
  | .error _ => []

section Animated

variable [Spring.Animated Document]

theorem Window.IsInside.progress_asksFor {w : Window Document} (h : w.IsInside)
    (hsmooth : w.transition.IsSmooth) {fps : Document} (hdrive : w.drive = w.transition.drive fps) :
    AsksFor w.asked (w.drive.progress w.transition.length w.offset) := by
  unfold Window.asked
  rw [hdrive, Transition.drive]
  cases hspring : w.transition.spring with
  | some config => exact .self _
  | none =>
    obtain ⟨x, hx⟩ := h.exists_div
    obtain ⟨y, hy⟩ := hsmooth.easing x
    obtain ⟨z, hz⟩ := exists_saturate_double y
    refine .of_exists_ok ⟨.double z, ?_⟩
    dsimp only [Drive.progress]
    rw [hx, ok_bind, hy, ok_bind, hz]

theorem Window.IsInside.effects_asksFor {w : Window Document} (h : w.IsInside)
    (hsmooth : w.transition.IsSmooth) {fps : Document} (hdrive : w.drive = w.transition.drive fps) :
    AsksFor w.asked w.effects := by
  refine (h.progress_asksFor hsmooth hdrive).bind_total fun x hx => ?_
  obtain ⟨y, rfl⟩ := w.drive.progress_eq_double hx
  obtain ⟨p, hp⟩ := hsmooth.presentation
  obtain ⟨outgoing, incoming, heffects, -⟩ := p.exists_effects y
  rw [hp]
  exact ⟨_, heffects⟩

/-! ## Frames -/

/-- What a frame asks of springs: the scenes to be seen ask, as `scenes` tells, at frames of their
own, and the transitions between them do. -/
def asked (t : Timeline Document) (l : Layout) (scenes : Nat → Int → List (Except Fault Document))
    (c : Int) : List (Except Fault Document) :=
  (l.visible c).flatMap fun i =>
    (if i + 1 ∈ l.visible c then t.crossingAsked i c else []) ++ scenes i (c - l.start i)

omit [Spring.Animated Document] in
theorem enteredAmong_isDouble {t : Timeline Document} {active : List Nat} {i : Nat}
    {frame : Document} {e : LayerEffect Document} (h : t.enteredAmong active i frame = .ok e) :
    e.IsDouble := by
  unfold enteredAmong at h
  split at h
  case isFalse =>
    cases h
    exact LayerEffect.full_isDouble
  case isTrue =>
    obtain ⟨crossed, hcrossed, h⟩ := bind_eq_ok_iff.mp h
    obtain ⟨e', he', hdouble⟩ :=
      LayerEffect.full_isDouble.exists_combine (crossing_isDouble hcrossed).2
    cases h.symm.trans he'
    exact hdouble

section Follows

variable {t : Timeline Document} {l : Layout} (h : t.Follows l)
  (hdrives : t.drives = t.transitions.map fun tr => tr.drive t.fps)
  (hsmooth : ∀ tr ∈ t.transitions, tr.IsSmooth) {c : Int} {i : Nat} (hi : i ∈ l.visible c)

include h hdrives hsmooth hi

theorem Follows.crossing_asksFor (hnext : i + 1 ∈ l.visible c) :
    AsksFor (t.crossingAsked i c) (t.crossing i (ofInt c)) := by
  obtain ⟨w, hw, hinside, hmem⟩ := h.windowAt_isInside hdrives hi hnext
  have hcount := l.lt_count_of_mem_visible hnext
  obtain ⟨tr, htr, -⟩ := h.exists_transition hcount
  have hdrive : w.drive = w.transition.drive t.fps := by
    cases (h.windowAt_eq hdrives htr hcount c).symm.trans hw
    rfl
  have hw' : t.windowAt i (.int c) = .ok w := hw
  unfold crossing crossingAsked
  rw [hw, hw', ok_bind]
  exact hinside.effects_asksFor (hsmooth _ hmem) hdrive

theorem Follows.effectAt_asksFor :
    AsksFor ((if 0 < i ∧ i - 1 ∈ l.visible c then t.crossingAsked (i - 1) c else []) ++
        if i + 1 ∈ l.visible c then t.crossingAsked i c else [])
      (t.effectAt i (ofInt c)) := by
  rw [h.effectAt_eq hdrives hi, effectAmong_eq]
  refine .bind (?_ : AsksFor _ (t.enteredAmong (l.visible c) i (ofInt c))) fun _ hentered => ?_
  · unfold enteredAmong
    split
    case isFalse => exact .ok _
    case isTrue hprev =>
      have hnext : i - 1 + 1 ∈ l.visible c := by rwa [Nat.sub_add_cancel hprev.1]
      refine (h.crossing_asksFor hdrives hsmooth hprev.2 hnext).bind_total fun e he => ?_
      obtain ⟨entered, hentered, -⟩ :=
        LayerEffect.full_isDouble.exists_combine (crossing_isDouble he).2
      exact ⟨entered, hentered⟩
  · split
    case isFalse => exact .ok _
    case isTrue hnext =>
      refine (h.crossing_asksFor hdrives hsmooth hi hnext).bind_total fun e he => ?_
      obtain ⟨effect, heffect, -⟩ :=
        (enteredAmong_isDouble hentered).exists_combine (crossing_isDouble he).1
      exact ⟨effect, heffect⟩

omit hi in
/-- A frame is composed exactly if the scenes to be seen and the springs of the transitions between
them answer. -/
theorem Follows.frameAt_asksFor {scenes : Nat → Int → List (Except Fault Document)}
    (hscenes : ∀ i s, t.segments[i]? = some s → ∀ o, 0 ≤ o → o < l.length i →
      AsksFor (scenes i o) (s.scene (ofInt o)))
    {f : Int} (hf : 0 ≤ f) (hf' : f < l.duration) :
    AsksFor (t.asked l scenes f) (t.frameAt (ofInt f)) := by
  have hlayer : ∀ i ∈ l.visible f, AsksFor
      (((if 0 < i ∧ i - 1 ∈ l.visible f then t.crossingAsked (i - 1) f else []) ++
        if i + 1 ∈ l.visible f then t.crossingAsked i f else []) ++ scenes i (f - l.start i))
      (t.layerAt (ofInt f) i) := by
    intro i hi
    have hcount := l.lt_count_of_mem_visible hi
    obtain ⟨s, hs, -⟩ := h.exists_segment hcount
    have hstate := hscenes i s hs (f - l.start i)
    rw [Layout.mem_visible, Layout.stop] at hi
    unfold layerAt
    rw [entryAt_eq_ok_iff.mpr hs, ok_bind, h.entryAt_starts hcount, ok_bind, Arith.Whole.sub_ofInt,
      ok_bind]
    refine (h.effectAt_asksFor hdrives hsmooth (l.mem_visible.mpr hi)).bind fun effect _ => ?_
    exact (hstate (by omega) (by omega)).bind_total fun state _ => ⟨_, rfl⟩
  unfold frameAt
  rw [h.clampFrame_eq, ok_bind, l.clamp_eq_self hf hf', h.activeSegments_eq, ok_bind,
    l.clamp_eq_self hf hf']
  refine ((AsksFor.mapM hlayer).bind_total fun layers _ => ⟨_, rfl⟩).congr fun q => ?_
  simp only [asked, List.mem_flatMap, List.mem_append]
  constructor
  · rintro ⟨i, hi, (hq | hq) | hq⟩
    · split at hq
      case isFalse => cases hq
      case isTrue hprev =>
        have hnext : i - 1 + 1 ∈ l.visible f := by rwa [Nat.sub_add_cancel hprev.1]
        exact ⟨i - 1, hprev.2, .inl (by rwa [if_pos hnext])⟩
    · exact ⟨i, hi, .inl hq⟩
    · exact ⟨i, hi, .inr hq⟩
  · rintro ⟨i, hi, hq | hq⟩
    · exact ⟨i, hi, .inl (.inr hq)⟩
    · exact ⟨i, hi, .inr hq⟩

omit hi in
/-- Every so many frames are sampled exactly if the scenes and the springs asked for at them
answer. -/
theorem Follows.sampleFrames_asksFor {scenes : Nat → Int → List (Except Fault Document)}
    (hscenes : ∀ i s, t.segments[i]? = some s → ∀ o, 0 ≤ o → o < l.length i →
      AsksFor (scenes i o) (s.scene (ofInt o)))
    {k : Nat} (hk : 0 < k) :
    AsksFor (((List.range l.duration.toNat).filter (k ∣ ·)).flatMap fun f : Nat =>
      t.asked l scenes f) (t.sampleFrames (.int 0) none (.int k)) := by
  rw [h.sampleFrames_eq hk, ← List.flatMap_map (fun f : Nat => (f : Int)) (t.asked l scenes)]
  refine .mapM fun place hplace => ?_
  obtain ⟨f, hf, rfl⟩ := List.mem_map.mp hplace
  rw [List.mem_filter, List.mem_range] at hf
  exact h.frameAt_asksFor hdrives hsmooth hscenes (Int.natCast_nonneg f) (by omega)

end Follows

end Animated
end Timeline
end Showreel
