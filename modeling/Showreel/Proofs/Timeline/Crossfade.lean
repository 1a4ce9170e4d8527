import Showreel.Proofs.Timeline.Bounds
import Showreel.Sampling

/-!
# Crossfades

In a crossfade the incoming layer takes exactly as much opacity as the outgoing one gives up. If all
transitions of a timeline are crossfades, two layers of a frame together are as opaque as one. Three
or more layers may overlap on short segments; each of them shows at least what the one above it
leaves, so that together they are never less opaque than one. How the progress of a transition is
driven does not matter, since it is kept between zero and one. Arithmetic is exact here.
-/

namespace Showreel

open Arith (ofInt)

/-! ## Chains of layers -/

/-- The opacities of layers each of which is covered by the next one: how far the first one has come
in, and how far every further one has. -/
def chain (entered : ℚ) : List ℚ → List ℚ
  | [] => [entered]
  | p :: ps => entered * (1 - p) :: chain p ps

/-- What a layer gives up the next one takes, and more of it if the layer has not come in yet. -/
theorem le_sum_chain {entered : ℚ} {ps : List ℚ} (hentered : entered ≤ 1)
    (hps : ∀ p ∈ ps, 0 ≤ p ∧ p ≤ 1) : entered ≤ (chain entered ps).sum := by
  induction ps generalizing entered with
  | nil => simp [chain]
  | cons p ps ih =>
    rw [List.forall_mem_cons] at hps
    have htail : p ≤ (chain p ps).sum := ih hps.1.2 hps.2
    have hgain : 0 ≤ p * (1 - entered) := mul_nonneg hps.1.1 (by linarith)
    calc entered ≤ entered + p * (1 - entered) := by linarith
      _ = entered * (1 - p) + p := by ring
      _ ≤ entered * (1 - p) + (chain p ps).sum := by linarith
      _ = (chain entered (p :: ps)).sum := by rw [chain, List.sum_cons]

theorem sum_chain_one {ps : List ℚ} (hps : ps.length ≤ 1) : (chain 1 ps).sum = 1 := by
  match ps, hps with
  | [], _ => simp [chain]
  | [p], _ => simp [chain]

/-- The opacity of the layer at position `i` among those to be seen, where neighbours share theirs:
the upper one of two has the share `p` of the lower position, the lower one has the rest. -/
def shared (p : Nat → ℚ) (seen : List Nat) (i : Nat) : ℚ :=
  (if 0 < i ∧ i - 1 ∈ seen then p (i - 1) else 1) * if i + 1 ∈ seen then 1 - p i else 1

/-- Layers at neighbouring positions, each of which comes in as far as it covers the one before, are
a chain. -/
theorem chain_range' (p : Nat → ℚ) (last k i : Nat) (hlast : i + k = last) (entered : ℚ) :
    chain entered ((List.range' i k).map p) =
      entered * (if i < last then 1 - p i else 1) ::
        (List.range' (i + 1) k).map fun j => p (j - 1) * if j < last then 1 - p j else 1 := by
  induction k generalizing i entered with
  | zero =>
    rw [if_neg (by omega)]
    simp [chain]
  | succ k ih =>
    have htail := ih (i + 1) (by omega) (p i)
    rw [if_pos (show i < last by omega)]
    simp only [List.range'_succ, List.map_cons, chain, htail, Nat.add_sub_cancel]

/-- What a run of neighbours shares is a chain that begins with a layer all of which is there. -/
theorem map_shared_range' (p : Nat → ℚ) (first k : Nat) :
    (List.range' first (k + 1)).map (shared p (List.range' first (k + 1))) =
      chain 1 ((List.range' first k).map p) := by
  have hmem : ∀ j, j ∈ List.range' first (k + 1) ↔ first ≤ j ∧ j ≤ first + k := by
    intro j
    rw [List.mem_range'_1]
    omega
  have hbottom : shared p (List.range' first (k + 1)) first =
      1 * if first < first + k then 1 - p first else 1 := by
    unfold shared
    simp only [hmem]
    congr 1
    · exact if_neg (by omega)
    · exact if_congr (by omega) rfl rfl
  have habove : ∀ j ∈ List.range' (first + 1) k, shared p (List.range' first (k + 1)) j =
      p (j - 1) * if j < first + k then 1 - p j else 1 := by
    intro j hj
    rw [List.mem_range'_1] at hj
    unfold shared
    simp only [hmem]
    congr 1
    · exact if_pos (by omega)
    · exact if_congr (by omega) rfl rfl
  rw [chain_range' p (first + k) k first rfl, ← List.map_congr_left habove, ← hbottom,
    ← List.map_cons (f := shared p _), ← List.range'_succ]

/-! ## Effects of a crossfade -/

namespace LayerEffect

theorem combine_faded (p q : ℚ) : (faded p).combine (faded q) = .ok (faded (p * q)) := by
  simp only [combine, faded, full, Arith.mul_rat, Arith.add_rat, Arith.zero_rat, Arith.one_rat,
    ok_bind, pure_eq_ok, add_zero, mul_one]

end LayerEffect

namespace Timeline

/-- Where a crossfade has effects it takes a share between zero and one from one layer to the
other. -/
theorem Window.effects_of_crossfade {w : Window ℚ}
    (hfade : w.transition.presentation = .known .crossfade) {e : LayerEffect ℚ × LayerEffect ℚ}
    (h : w.effects = .ok e) :
    ∃ p, (0 ≤ p ∧ p ≤ 1) ∧ e = (.faded (1 - p), .faded p) := by
  obtain ⟨p, hp, h⟩ := bind_eq_ok_iff.mp h
  have heffects : Presentation.effectsOf w.transition.presentation p =
      .ok (.faded (1 - p), .faded p) := by
    rw [hfade]
    exact Presentation.effects_crossfade p
  rw [heffects] at h
  cases h
  exact ⟨p, w.drive.progress_mem hp, rfl⟩

section Follows

variable [Spring.Animated ℚ] {t : Timeline ℚ} {l : Layout} (h : t.Follows l)
  (hdrives : t.drives = t.transitions.map fun tr => tr.drive t.fps)
  (hfade : ∀ tr ∈ t.transitions, tr.presentation = .known .crossfade) {c : Int}

include h hdrives hfade

/-- Two layers between which a transition has effects share their opacity. -/
theorem Follows.exists_shares
    (hcrossings : ∀ j, j ∈ l.visible c → j + 1 ∈ l.visible c →
      ∃ e, t.crossing j (ofInt c) = .ok e) :
    ∃ p : Nat → ℚ, ∀ j, j ∈ l.visible c → j + 1 ∈ l.visible c →
      (0 ≤ p j ∧ p j ≤ 1) ∧ t.crossing j (ofInt c) = .ok (.faded (1 - p j), .faded (p j)) := by
  have hshare : ∀ j, ∃ p, j ∈ l.visible c → j + 1 ∈ l.visible c →
      (0 ≤ p ∧ p ≤ 1) ∧ t.crossing j (ofInt c) = .ok (.faded (1 - p), .faded p) := by
    intro j
    by_cases hboth : j ∈ l.visible c ∧ j + 1 ∈ l.visible c
    swap
    · exact ⟨0, fun hj hnext => absurd ⟨hj, hnext⟩ hboth⟩
    obtain ⟨hj, hnext⟩ := hboth
    obtain ⟨w, hw, -, hmem⟩ := h.windowAt_isInside hdrives hj hnext
    have hcrossing : t.crossing j (ofInt c) = w.effects := by rw [crossing, hw, ok_bind]
    obtain ⟨e, he⟩ := hcrossings j hj hnext
    rw [hcrossing] at he
    obtain ⟨p, hp, rfl⟩ := Window.effects_of_crossfade (hfade _ hmem) he
    exact ⟨p, fun _ _ => ⟨hp, hcrossing.trans he⟩⟩
  choose p hp using hshare
  exact ⟨p, hp⟩

omit hfade in
/-- A layer comes in as far as it covers the one below it, and gives up what the one above it
takes. -/
theorem Follows.effectAt_of_shares {p : Nat → ℚ}
    (hp : ∀ j, j ∈ l.visible c → j + 1 ∈ l.visible c →
      t.crossing j (ofInt c) = .ok (.faded (1 - p j), .faded (p j)))
    {i : Nat} (hi : i ∈ l.visible c) :
    t.effectAt i (ofInt c) = .ok (.faded (shared p (l.visible c) i)) := by
  have hentered : t.enteredAmong (l.visible c) i (ofInt c) =
      .ok (.faded (if 0 < i ∧ i - 1 ∈ l.visible c then p (i - 1) else 1)) := by
    rw [enteredAmong, LayerEffect.full_rat]
    split
    case isTrue hbelow =>
      have hcrossing := hp (i - 1) hbelow.2 (by rwa [Nat.sub_add_cancel hbelow.1])
      rw [hcrossing, ok_bind, LayerEffect.combine_faded, one_mul]
    case isFalse => rfl
  rw [h.effectAt_eq hdrives hi, effectAmong_eq, hentered, ok_bind, shared]
  by_cases hnext : i + 1 ∈ l.visible c
  · rw [if_pos hnext, if_pos hnext, hp i hi hnext, ok_bind, LayerEffect.combine_faded]
  · rw [if_neg hnext, if_neg hnext, mul_one]

omit hfade in
/-- The layers of a frame have the opacities that their positions share. -/
theorem Follows.opacities_of_shares {f : Int} {frame : ComposedFrame ℚ}
    (hframe : t.frameAt (ofInt f) = .ok frame) {p : Nat → ℚ}
    (hp : ∀ j, j ∈ l.visible (l.clamp f) → j + 1 ∈ l.visible (l.clamp f) →
      t.crossing j (ofInt (l.clamp f)) = .ok (.faded (1 - p j), .faded (p j))) :
    frame.layers.map (fun layer => layer.effect.opacity) =
      (l.visible (l.clamp f)).map (shared p (l.visible (l.clamp f))) := by
  have hlayers := (h.frameAt_eq_ok_iff.mp hframe).2
  have hvisible := (List.forall₂_and_left _ _).mpr
    ⟨fun i (hi : i ∈ l.visible (l.clamp f)) => hi, hlayers⟩
  rw [eq_comm, ← List.forall₂_eq_eq_eq, List.forall₂_map_left_iff, List.forall₂_map_right_iff]
  refine hvisible.imp fun i layer hlayer => ?_
  obtain ⟨hi, hlayer⟩ := hlayer
  obtain ⟨s, -, -, -, -, heffect, -⟩ := h.layerAt_eq_ok_iff.mp hlayer
  rw [h.effectAt_of_shares hdrives hp hi] at heffect
  rw [← Except.ok.inj heffect]
  rfl

/-- The opacities of the layers of a frame are a chain that begins with a layer all of which is
there. -/
theorem Follows.opacities_eq_chain {f : Int} {frame : ComposedFrame ℚ}
    (hframe : t.frameAt (ofInt f) = .ok frame) :
    ∃ ps : List ℚ, (∀ p ∈ ps, 0 ≤ p ∧ p ≤ 1) ∧ frame.layers.length = ps.length + 1 ∧
      frame.layers.map (fun layer => layer.effect.opacity) = chain 1 ps := by
  obtain ⟨first, hrun⟩ := exists_range'_of_activeSegments (h.activeSegments_eq f)
  have hne := l.visible_ne_nil (l.clamp_nonneg f) (l.clamp_lt_duration f)
  obtain ⟨k, hk⟩ : ∃ k, (l.visible (l.clamp f)).length = k + 1 :=
    Nat.exists_eq_succ_of_ne_zero (mt List.length_eq_zero_iff.mp hne)
  rw [hk] at hrun
  obtain ⟨p, hp⟩ := h.exists_shares hdrives hfade fun j hj hnext => by
    obtain ⟨⟨effect, heffect⟩, -⟩ := (h.exists_frameAt_iff f).mp ⟨frame, hframe⟩ (j + 1) hnext
    exact h.exists_crossing_of_effectAt hdrives hj hnext heffect
  have hopacities := h.opacities_of_shares hdrives hframe fun j hj hnext => (hp j hj hnext).2
  refine ⟨(List.range' first k).map p, ?_, ?_, ?_⟩
  · rw [List.forall_mem_map]
    intro j hj
    rw [List.mem_range'_1] at hj
    rw [hrun] at hp
    exact (hp j (List.mem_range'_1.mpr (by omega)) (List.mem_range'_1.mpr (by omega))).1
  · rw [← (h.frameAt_eq_ok_iff.mp hframe).2.length_eq, hk, List.length_map, List.length_range']
  · rw [hopacities, hrun, map_shared_range']

end Follows

/-- Layers that cross-fade are together as opaque as one layer where at most two of them overlap,
and never less opaque. No more than two overlap if the transitions on both sides of a segment are
not longer than the segment together. Every frame is composed if easings, springs and scenes yield a
value where they are asked for one. -/
theorem crossfades_keep_opacity [Spring.Animated ℚ] {items : List (Item ℚ)}
    (hitems : ∀ item ∈ items, item.IsWhole) {fps : ℚ} {name : Document} {t : Timeline ℚ}
    (hbuild : build items fps name = .ok t)
    (hfade : ∀ tr, .transition tr ∈ items → tr.presentation = .known .crossfade) :
    (∀ (f : Int) (frame : ComposedFrame ℚ), t.frameAt f = .ok frame →
      ∃ s, Reading.opacitySum.of frame = .ok s ∧ 1 ≤ s ∧ (frame.layers.length ≤ 2 → s = 1)) ∧
    ((∀ (i : Nat) before s after, t.transitions[i]? = some before →
        t.segments[i + 1]? = some s → t.transitions[i + 1]? = some after →
        before.length + after.length ≤ s.length) →
      ∀ (f : Int) (frame : ComposedFrame ℚ), t.frameAt f = .ok frame →
        frame.layers.length ≤ 2 ∧ Reading.opacitySum.of frame = .ok 1) ∧
    ((∀ tr ∈ t.transitions, ∀ o : Int, 0 ≤ o → (o : ℚ) < tr.length →
        ∃ x, tr.progress (o : ℚ) t.fps = .ok x) →
      (∀ s ∈ t.segments, ∀ o : Int, 0 ≤ o → (o : ℚ) < s.length →
        ∃ state, s.scene (o : ℚ) = .ok state) →
      ∀ f : Int, ∃ frame, t.frameAt f = .ok frame) := by
  obtain ⟨l, h, -, halt, rfl, -, hdrives⟩ := follows_of_build hitems hbuild
  have hfade' : ∀ tr ∈ t.transitions, tr.presentation = .known .crossfade :=
    fun tr htr => hfade tr (halt.transition_mem htr)
  have hsum : ∀ (f : Int) (frame : ComposedFrame ℚ), t.frameAt f = .ok frame →
      ∃ s, Reading.opacitySum.of frame = .ok s ∧ 1 ≤ s ∧ (frame.layers.length ≤ 2 → s = 1) := by
    intro f frame hframe
    obtain ⟨ps, hps, hlength, hopacities⟩ := h.opacities_eq_chain hdrives hfade' hframe
    have htotal : Reading.opacitySum.of frame = .ok (chain 1 ps).sum := by
      rw [Reading.of, hopacities, Arith.total_rat]
    exact ⟨_, htotal, le_sum_chain le_rfl hps, fun hfew => sum_chain_one (by omega)⟩
  refine ⟨hsum, fun hroom f frame hframe => ?_, fun hprogress hscenes f =>
    h.exists_frameAt_of_progress hdrives (fun tr htr => ⟨.crossfade, hfade' tr htr⟩) hprogress
      hscenes⟩
  have hroom' : ∀ i, i + 2 < l.count → l.overlap i + l.overlap (i + 1) ≤ l.length (i + 1) := by
    intro i hi
    obtain ⟨before, hbefore, hin⟩ := h.exists_transition (j := i) (by omega)
    obtain ⟨after, hafter, hout⟩ := h.exists_transition (j := i + 1) hi
    obtain ⟨s, hs, hlength⟩ := h.exists_segment (i := i + 1) (by omega)
    have hfit := hroom i before s after hbefore hs hafter
    rw [hin, hout, hlength] at hfit
    simp only [Arith.ofInt_rat] at hfit
    exact_mod_cast hfit
  obtain ⟨first, hrun⟩ := exists_range'_of_activeSegments (h.activeSegments_eq f)
  have hfew := l.length_visible_le_two hrun hroom'
  have hlength := (h.frameAt_eq_ok_iff.mp hframe).2.length_eq
  obtain ⟨s, htotal, -, hone⟩ := hsum f frame hframe
  have hlayers : frame.layers.length ≤ 2 := by omega
  exact ⟨hlayers, by rw [htotal, hone hlayers]⟩

/-- A segment of three frames that both of its neighbours overlap whole, in exact numbers. -/
def exactShortMiddle : List (Item ℚ) :=
  let scene : ℚ → Except Fault (Snapshot ℚ) := fun frame => .ok (.number frame)
  let way : Transition ℚ :=
    { length := 3, presentation := .known .crossfade, easing := Easing.linear.apply }
  [.segment { length := 6, scene, name := .text "first" }, .transition way,
    .segment { length := 3, scene, name := .text "middle" }, .transition way,
    .segment { length := 6, scene, name := .text "last" }]

/-- A third of the way through both windows the three layers are more opaque than one. -/
theorem crossfades_keep_opacity_shortMiddle :
    (∀ item ∈ exactShortMiddle, item.IsWhole) ∧
      (∀ tr, .transition tr ∈ exactShortMiddle → tr.presentation = .known .crossfade) ∧
      ∃ t, @build ℚ _ heldSprings exactShortMiddle 30 (.text "cards") = .ok t ∧
        ∃ frame, t.frameAt (4 : Int) = .ok frame ∧ frame.layers.length = 3 ∧
          Reading.opacitySum.of frame = .ok (11 / 9) ∧ (1 : ℚ) ≤ 11 / 9 := by
  let _ := heldSprings
  have hwhole : ∀ item ∈ exactShortMiddle, item.IsWhole := by
    simp only [exactShortMiddle, List.forall_mem_cons, Item.isWhole_segment_iff,
      Item.isWhole_transition_iff]
    exact ⟨⟨6, by decide, rfl⟩, ⟨3, by decide, rfl⟩, ⟨3, by decide, rfl⟩, ⟨3, by decide, rfl⟩,
      ⟨6, by decide, rfl⟩, by simp⟩
  have hfade : ∀ tr, .transition tr ∈ exactShortMiddle →
      tr.presentation = .known .crossfade := by
    intro tr htr
    simp only [exactShortMiddle, List.mem_cons, Item.transition.injEq, reduceCtorEq, false_or,
      List.not_mem_nil, or_false] at htr
    rcases htr with rfl | rfl
    · rfl
    · rfl
  have hrun : (do
      let t ← build exactShortMiddle 30 (.text "cards")
      let frame ← t.frameAt (4 : Int)
      return (frame.layers.length, ← Reading.opacitySum.of frame)) = .ok (3, (11 / 9 : ℚ)) := by
    decide +kernel
  obtain ⟨t, hbuild, hrun⟩ := bind_eq_ok_iff.mp hrun
  obtain ⟨frame, hframe, hrun⟩ := bind_eq_ok_iff.mp hrun
  obtain ⟨sum, hsum, hrun⟩ := bind_eq_ok_iff.mp hrun
  obtain ⟨hlayers, rfl⟩ := Prod.mk.inj (Except.ok.inj hrun)
  obtain ⟨hatleast, -, -⟩ := crossfades_keep_opacity hwhole hbuild hfade
  obtain ⟨s, hs, hone, -⟩ := hatleast 4 frame hframe
  cases hs.symm.trans hsum
  exact ⟨hwhole, hfade, t, hbuild, frame, hframe, hlayers, hsum, hone⟩

end Timeline

end Showreel
