import Mathlib.Tactic.Linarith
import Mathlib.Tactic.Positivity
import Showreel.Proofs.Presentation
import Showreel.Proofs.Timeline.Windows

/-!
# Bounds of effects

The progress of a transition is kept between zero and one, whatever drives it, so that every
presentation has effects within bounds: opacities are shares, a layer is shifted by one frame at
most, and only the incoming one changes its size. A layer takes part in two transitions at most, and
bounds of combined effects follow from those of the two. Arithmetic is exact here.
-/

namespace Showreel

open Arith (ofInt)

/-! ## Effects within bounds -/

/-- The opacity is a share, the layer is shifted sideways alone and at most so far, and its scale
lies between two bounds. -/
structure LayerEffect.Within (shift low high : ℚ) (e : LayerEffect ℚ) : Prop where
  opacity : 0 ≤ e.opacity ∧ e.opacity ≤ 1
  offsetX : -shift ≤ e.offsetX ∧ e.offsetX ≤ shift
  offsetY : e.offsetY = 0
  scale : low ≤ e.scale ∧ e.scale ≤ high

namespace LayerEffect

theorem within_full : (full : LayerEffect ℚ).Within 0 1 1 := by
  unfold full
  rw [Arith.one_rat, Arith.zero_rat]
  exact ⟨by norm_num, by norm_num, rfl, by norm_num⟩

theorem within_faded {p : ℚ} (hp : 0 ≤ p ∧ p ≤ 1) : (faded p).Within 1 1 1 := by
  unfold faded full
  rw [Arith.one_rat, Arith.zero_rat]
  exact ⟨hp, by norm_num, rfl, by norm_num⟩

theorem within_shifted {d : ℚ} (hd : -1 ≤ d ∧ d ≤ 1) : (shifted d).Within 1 1 1 := by
  unfold shifted full
  rw [Arith.one_rat, Arith.zero_rat]
  exact ⟨by norm_num, hd, rfl, by norm_num⟩

theorem Within.mono {shift shift' low low' high high' : ℚ} {e : LayerEffect ℚ}
    (h : e.Within shift low high) (hshift : shift ≤ shift') (hlow : low' ≤ low)
    (hhigh : high ≤ high') : e.Within shift' low' high' where
  opacity := h.opacity
  offsetX := ⟨by linarith [h.offsetX.1], h.offsetX.2.trans hshift⟩
  offsetY := h.offsetY
  scale := ⟨hlow.trans h.scale.1, h.scale.2.trans hhigh⟩

/-- Shifts of combined effects add up, and bounds of their scales multiply. -/
theorem Within.combine {shift shift' low low' high high' : ℚ} {e e' : LayerEffect ℚ}
    (h : e.Within shift low high) (h' : e'.Within shift' low' high') (hlow : 0 ≤ low)
    (hlow' : 0 ≤ low') :
    ∃ c, e.combine e' = .ok c ∧ c.Within (shift + shift') (low * low') (high * high') := by
  have hscale : 0 ≤ e.scale := hlow.trans h.scale.1
  have hscale' : 0 ≤ e'.scale := hlow'.trans h'.scale.1
  refine ⟨_, rfl, ?_, ?_, ?_, ?_⟩
  · exact ⟨mul_nonneg h.opacity.1 h'.opacity.1,
      mul_le_one₀ h.opacity.2 h'.opacity.1 h'.opacity.2⟩
  · exact ⟨by linarith [h.offsetX.1, h'.offsetX.1], add_le_add h.offsetX.2 h'.offsetX.2⟩
  · change e.offsetY + e'.offsetY = 0
    rw [h.offsetY, h'.offsetY, add_zero]
  · exact ⟨mul_le_mul h.scale.1 h'.scale.1 hlow' hscale,
      mul_le_mul h.scale.2 h'.scale.2 hscale' (hscale.trans h.scale.2)⟩

end LayerEffect

/-! ## Presentations -/

namespace Presentation

open LayerEffect

theorem effects_crossfade (x : ℚ) : crossfade.effects x = .ok (faded (1 - x), faded x) :=
  effects_rat crossfade x

/-- Two layers slide by at most the width of a frame. -/
theorem slid_within {sign y : ℚ} (hsign : sign = 1 ∨ sign = -1) (hy : 0 ≤ y ∧ y ≤ 1) :
    (slid sign y).1.Within 1 1 1 ∧ (slid sign y).2.Within 1 1 1 := by
  obtain ⟨hlow, hhigh⟩ := hy
  rcases hsign with rfl | rfl
  · exact ⟨within_shifted ⟨by linarith, by linarith⟩, within_shifted ⟨by linarith, by linarith⟩⟩
  · exact ⟨within_shifted ⟨by linarith, by linarith⟩, within_shifted ⟨by linarith, by linarith⟩⟩

/-- A layer zooms within bounds if its size keeps them. -/
theorem zoomed_within {y scale : ℚ} (hy : 0 ≤ y) (hscale : 3 / 10 ≤ scale ∧ scale ≤ 3 / 2) :
    (zoomed y scale).1.Within 1 1 1 ∧ (zoomed y scale).2.Within 1 (3 / 10) (3 / 2) := by
  have hfull : (full : LayerEffect ℚ).Within 1 1 1 := within_full.mono zero_le_one le_rfl le_rfl
  refine ⟨hfull, ⟨le_min zero_le_one ?_, min_le_left _ _⟩, hfull.offsetX, hfull.offsetY, hscale⟩
  positivity

/-- At every progress the outgoing layer keeps its size, and the incoming one has between three
tenths of it and half as much again. -/
theorem exact_within (p : Presentation) {x : ℚ} (hx : 0 ≤ x ∧ x ≤ 1) :
    (p.exact x).1.Within 1 1 1 ∧ (p.exact x).2.Within 1 (3 / 10) (3 / 2) := by
  have hloosen : ∀ {e : LayerEffect ℚ}, e.Within 1 1 1 → e.Within 1 (3 / 10) (3 / 2) :=
    fun h => h.mono le_rfl (by norm_num) (by norm_num)
  have hfull : (full : LayerEffect ℚ).Within 1 1 1 := within_full.mono zero_le_one le_rfl le_rfl
  have hhidden : (faded 0 : LayerEffect ℚ).Within 1 1 1 := within_faded ⟨le_rfl, zero_le_one⟩
  have hmoved := moved_rises.mem hx.1 hx.2
  cases p with
  | cut =>
    rw [exact]
    split
    · exact ⟨hfull, hloosen hhidden⟩
    · exact ⟨hhidden, hloosen hfull⟩
  | crossfade =>
    exact ⟨within_faded ⟨sub_nonneg.mpr hx.2, sub_le_self 1 hx.1⟩, hloosen (within_faded hx)⟩
  | fadeBlack =>
    refine ⟨within_faded ?_, hloosen (within_faded ?_)⟩
    · exact ⟨le_max_left _ _, max_le zero_le_one (by linarith)⟩
    · exact ⟨le_max_left _ _, max_le zero_le_one (by linarith)⟩
  | slideLeft => exact (slid_within (.inl rfl) hmoved).imp_right hloosen
  | slideRight => exact (slid_within (.inr rfl) hmoved).imp_right hloosen
  | zoomIn => exact zoomed_within hmoved.1 ⟨by linarith, by linarith⟩
  | zoomOut => exact zoomed_within hmoved.1 ⟨by linarith, by linarith⟩

theorem exists_effects_within (p : Presentation) {x : ℚ} (hx : 0 ≤ x ∧ x ≤ 1) :
    ∃ outgoing incoming, p.effects x = .ok (outgoing, incoming) ∧ outgoing.Within 1 1 1 ∧
      incoming.Within 1 (3 / 10) (3 / 2) :=
  ⟨_, _, p.effects_rat x, (p.exact_within hx).1, (p.exact_within hx).2⟩

end Presentation

/-! ## Progress -/

/-- Whatever drives a transition, its progress is a share. -/
theorem Drive.progress_mem {d : Drive ℚ} {length offset x : ℚ}
    (h : d.progress length offset = .ok x) : 0 ≤ x ∧ x ≤ 1 := by
  unfold Drive.progress at h
  cases d with
  | easing ease =>
    obtain ⟨way, -, h⟩ := bind_eq_ok_iff.mp h
    obtain ⟨value, -, h⟩ := bind_eq_ok_iff.mp h
    exact Arith.saturate_rat_mem h
  | spring motion =>
    obtain ⟨value, -, h⟩ := bind_eq_ok_iff.mp h
    exact Arith.saturate_rat_mem h

namespace Timeline

/-! ## Layers -/

/-- A transition keeps the size of the layer that goes out. -/
theorem Window.effects_within {w : Window ℚ} {e : LayerEffect ℚ × LayerEffect ℚ}
    (h : w.effects = .ok e) : e.1.Within 1 1 1 ∧ e.2.Within 1 (3 / 10) (3 / 2) := by
  obtain ⟨x, hx, h⟩ := bind_eq_ok_iff.mp h
  cases hp : w.transition.presentation with
  | unknown label =>
    rw [hp] at h
    exact absurd h (bind_ne_ok fun _ => reject_ne_ok)
  | known p =>
    obtain ⟨outgoing, incoming, heffects, hwithin⟩ :=
      p.exists_effects_within (w.drive.progress_mem hx)
    rw [hp] at h
    cases h.symm.trans heffects
    exact hwithin

section Layers

variable {t : Timeline ℚ} {active : List Nat} {i : Nat} {frame : ℚ} {e : LayerEffect ℚ}

theorem crossing_within {j : Nat} {e : LayerEffect ℚ × LayerEffect ℚ}
    (h : t.crossing j frame = .ok e) : e.1.Within 1 1 1 ∧ e.2.Within 1 (3 / 10) (3 / 2) := by
  obtain ⟨w, -, h⟩ := bind_eq_ok_iff.mp h
  exact Window.effects_within h

theorem enteredAmong_within (h : t.enteredAmong active i frame = .ok e) :
    e.Within 1 (3 / 10) (3 / 2) := by
  unfold enteredAmong at h
  split at h
  case isFalse =>
    cases h
    exact LayerEffect.within_full.mono zero_le_one (by norm_num) (by norm_num)
  case isTrue =>
    obtain ⟨crossed, hcrossed, h⟩ := bind_eq_ok_iff.mp h
    obtain ⟨c, hc, hwithin⟩ := LayerEffect.within_full.combine (crossing_within hcrossed).2
      zero_le_one (by norm_num)
    cases h.symm.trans hc
    rwa [zero_add, one_mul, one_mul] at hwithin

/-- A layer is shifted by at most one frame for each of the two transitions that it takes part in,
and sized by one of them. -/
theorem effectAmong_within (h : t.effectAmong active i frame = .ok e) :
    e.Within 2 (3 / 10) (3 / 2) := by
  rw [effectAmong_eq] at h
  obtain ⟨entered, hentered, h⟩ := bind_eq_ok_iff.mp h
  have hwithin := enteredAmong_within hentered
  split at h
  case isFalse =>
    cases h
    exact hwithin.mono one_le_two le_rfl le_rfl
  case isTrue =>
    obtain ⟨crossed, hcrossed, h⟩ := bind_eq_ok_iff.mp h
    obtain ⟨c, hc, hboth⟩ := hwithin.combine (crossing_within hcrossed).1 (by norm_num) zero_le_one
    cases h.symm.trans hc
    rwa [one_add_one_eq_two, mul_one, mul_one] at hboth

end Layers

section Follows

variable [Spring.Animated ℚ] {t : Timeline ℚ} {l : Layout} (h : t.Follows l)
  (hdrives : t.drives = t.transitions.map fun tr => tr.drive t.fps) {f : Int}

include h hdrives

theorem Follows.layers_within {frame : ComposedFrame ℚ} (hframe : t.frameAt (ofInt f) = .ok frame) :
    ∀ layer ∈ frame.layers, layer.effect.Within 2 (3 / 10) (3 / 2) := by
  have hlayers := (h.frameAt_eq_ok_iff.mp hframe).2
  intro layer hlayer
  obtain ⟨i, hi, hlayer⟩ := exists_of_mem_mapM (mapM_eq_ok_iff.mpr hlayers) hlayer
  obtain ⟨s, -, -, -, -, heffect, -⟩ := h.layerAt_eq_ok_iff.mp hlayer
  rw [h.effectAt_eq hdrives hi] at heffect
  exact effectAmong_within heffect

/-- Two layers have the effects of the transition between them as soon as its progress is there. -/
theorem Follows.exists_crossing_of_progress
    (hknown : ∀ tr ∈ t.transitions, ∃ p, tr.presentation = .known p)
    (hprogress : ∀ tr ∈ t.transitions, ∀ o : Int, 0 ≤ o → (o : ℚ) < tr.length →
      ∃ x, tr.progress (o : ℚ) t.fps = .ok x)
    {c : Int} {j : Nat} (hj : j ∈ l.visible c) (hnext : j + 1 ∈ l.visible c) :
    ∃ e, t.crossing j (ofInt c) = .ok e := by
  obtain ⟨hnonneg, hlt⟩ := (l.succ_visible_iff hj).mp hnext
  have hcount := l.lt_count_of_mem_visible hnext
  obtain ⟨tr, htr, hlength⟩ := h.exists_transition hcount
  have hmem := List.mem_of_getElem? htr
  have hinside : ((c - l.start (j + 1) : Int) : ℚ) < tr.length := by
    rw [hlength, Arith.ofInt_rat]
    exact_mod_cast hlt
  obtain ⟨x, hx⟩ := hprogress tr hmem _ hnonneg hinside
  obtain ⟨p, hp⟩ := hknown tr hmem
  obtain ⟨outgoing, incoming, heffects, -⟩ := p.exists_effects_within (Drive.progress_mem hx)
  rw [crossing, h.windowAt_eq hdrives htr hcount, ok_bind]
  refine ⟨(outgoing, incoming), bind_eq_ok_iff.mpr ⟨x, hx, ?_⟩⟩
  rw [hp]
  exact heffects

/-- A frame is composed if the transitions whose windows it lies in are known and have their
progress and the scenes to be seen yield a state. -/
theorem Follows.exists_frameAt_of_progress
    (hknown : ∀ tr ∈ t.transitions, ∃ p, tr.presentation = .known p)
    (hprogress : ∀ tr ∈ t.transitions, ∀ o : Int, 0 ≤ o → (o : ℚ) < tr.length →
      ∃ x, tr.progress (o : ℚ) t.fps = .ok x)
    (hscenes : ∀ s ∈ t.segments, ∀ o : Int, 0 ≤ o → (o : ℚ) < s.length →
      ∃ state, s.scene (o : ℚ) = .ok state) :
    ∃ frame, t.frameAt (ofInt f) = .ok frame := by
  have hcrossing := fun j => h.exists_crossing_of_progress hdrives hknown hprogress
    (c := l.clamp f) (j := j)
  rw [h.exists_frameAt_iff]
  intro i hi
  constructor
  · obtain ⟨entered, hentered⟩ : ∃ entered,
        t.enteredAmong (l.visible (l.clamp f)) i (ofInt (l.clamp f)) = .ok entered := by
      unfold enteredAmong
      split
      case isFalse => exact ⟨_, rfl⟩
      case isTrue hprev =>
        have hnext : i - 1 + 1 ∈ l.visible (l.clamp f) := by rwa [Nat.sub_add_cancel hprev.1]
        obtain ⟨e, he⟩ := hcrossing (i - 1) hprev.2 hnext
        exact ⟨_, by rw [he]; rfl⟩
    rw [h.effectAt_eq hdrives hi, effectAmong_eq, hentered, ok_bind]
    split
    case isFalse => exact ⟨entered, rfl⟩
    case isTrue hnext =>
      obtain ⟨e, he⟩ := hcrossing i hi hnext
      exact ⟨_, by rw [he]; rfl⟩
  · obtain ⟨s, hs, hlength⟩ := h.exists_segment (l.lt_count_of_mem_visible hi)
    rw [Layout.mem_visible, Layout.stop] at hi
    have hinside : ((l.clamp f - l.start i : Int) : ℚ) < s.length := by
      rw [hlength, Arith.ofInt_rat]
      exact_mod_cast (by omega : l.clamp f - l.start i < l.length i)
    obtain ⟨state, hstate⟩ := hscenes s (List.mem_of_getElem? hs) _ (by omega) hinside
    exact ⟨s, state, hs, hstate⟩

end Follows

/-- At every frame all layers have opacities between zero and one, are shifted sideways alone and by
at most two frames, and are drawn at three tenths to half as much again of their size, whatever
drives the transitions. Every frame is composed if the presentations are known and easings, springs
and scenes yield a value where they are asked for one. -/
theorem layers_stay_in_bounds [Spring.Animated ℚ] {items : List (Item ℚ)}
    (hitems : ∀ item ∈ items, item.IsWhole) {fps : ℚ} {name : Document} {t : Timeline ℚ}
    (hbuild : build items fps name = .ok t) :
    (∀ (f : Int) (frame : ComposedFrame ℚ), t.frameAt f = .ok frame → ∀ layer ∈ frame.layers,
      (0 ≤ layer.effect.opacity ∧ layer.effect.opacity ≤ 1) ∧ layer.effect.offsetY = 0 ∧
      (-2 ≤ layer.effect.offsetX ∧ layer.effect.offsetX ≤ 2) ∧
      (3 / 10 ≤ layer.effect.scale ∧ layer.effect.scale ≤ 3 / 2)) ∧
    ((∀ tr, .transition tr ∈ items → ∃ p, tr.presentation = .known p) →
      (∀ tr ∈ t.transitions, ∀ o : Int, 0 ≤ o → (o : ℚ) < tr.length →
        ∃ x, tr.progress (o : ℚ) t.fps = .ok x) →
      (∀ s ∈ t.segments, ∀ o : Int, 0 ≤ o → (o : ℚ) < s.length →
        ∃ state, s.scene (o : ℚ) = .ok state) →
      ∀ f : Int, ∃ frame, t.frameAt f = .ok frame) := by
  obtain ⟨l, h, -, halt, rfl, -, hdrives⟩ := follows_of_build hitems hbuild
  refine ⟨fun f frame hframe layer hlayer => ?_, fun hknown hprogress hscenes f => ?_⟩
  · have hwithin := h.layers_within hdrives hframe layer hlayer
    exact ⟨hwithin.opacity, hwithin.offsetY, hwithin.offsetX, hwithin.scale⟩
  · exact h.exists_frameAt_of_progress hdrives (fun tr htr => hknown tr (halt.transition_mem htr))
      hprogress hscenes

/-- A motion for springs that are held. -/
@[reducible] def heldSprings : Spring.Animated ℚ where
  motion fps _ :=
    let natural := Thunk.mk fun _ => .ok 0
    { natural, progress := Spring.progressAt fps natural fun _ => .ok 0 }

/-- A short segment that slides in one way and out the other, driven by easings that leave the range
of progress on both sides. -/
def slidingMiddle : List (Item ℚ) :=
  let scene : ℚ → Except Fault (Snapshot ℚ) := fun frame => .ok (.number frame)
  [.segment { length := 6, scene, name := .text "first" },
    .transition { length := 3, presentation := .known .slideLeft, easing := fun _ => .ok (-1) },
    .segment { length := 3, scene, name := .text "middle" },
    .transition { length := 3, presentation := .known .slideRight, easing := fun _ => .ok 2 },
    .segment { length := 6, scene, name := .text "last" }]

/-- The middle layer is shifted by as much as any layer can be. -/
theorem layers_stay_in_bounds_slidingMiddle :
    (∀ item ∈ slidingMiddle, item.IsWhole) ∧
      ∃ t, @build ℚ _ heldSprings slidingMiddle 30 (.text "cards") = .ok t ∧
        ∃ frame, t.frameAt (4 : Int) = .ok frame ∧
          frame.layers.map (fun layer => layer.effect.offsetX) = [0, 2, 0] ∧
          ∀ layer ∈ frame.layers, -2 ≤ layer.effect.offsetX ∧ layer.effect.offsetX ≤ 2 := by
  let _ := heldSprings
  have hwhole : ∀ item ∈ slidingMiddle, item.IsWhole := by
    simp only [slidingMiddle, List.forall_mem_cons, Item.isWhole_segment_iff,
      Item.isWhole_transition_iff]
    exact ⟨⟨6, by decide, rfl⟩, ⟨3, by decide, rfl⟩, ⟨3, by decide, rfl⟩, ⟨3, by decide, rfl⟩,
      ⟨6, by decide, rfl⟩, by simp⟩
  have hrun : (do
      let t ← build slidingMiddle 30 (.text "cards")
      let frame ← t.frameAt (4 : Int)
      return frame.layers.map fun layer : Layer ℚ => layer.effect.offsetX) = .ok [0, 2, 0] := by
    decide +kernel
  obtain ⟨t, hbuild, hrun⟩ := bind_eq_ok_iff.mp hrun
  obtain ⟨frame, hframe, hrun⟩ := bind_eq_ok_iff.mp hrun
  obtain ⟨hbounds, -⟩ := layers_stay_in_bounds hwhole hbuild
  exact ⟨hwhole, t, hbuild, frame, hframe, Except.ok.inj hrun,
    fun layer hlayer => (hbounds 4 frame hframe layer hlayer).2.2.1⟩

end Timeline
end Showreel
