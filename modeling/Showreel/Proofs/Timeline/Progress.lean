import Showreel.Proofs.Timeline.Bounds

/-!
# Transitions under way

Over its window an eased transition goes from zero to one without turning back, since every easing
but the bouncing one rises. With its progress the outgoing layer gives way to the incoming one: at
the start only the one is to be seen as if alone, at the end only the other. Arithmetic is exact
here, and offsets need not be whole.
-/

namespace Showreel

namespace Transition

/-- A transition of some length that is driven by an easing. -/
theorem eased_rat {length : ℚ} (hlength : 0 ≤ length) (presentation : Choice Presentation)
    (easing : ℚ → Except Fault ℚ) :
    eased length presentation easing = .ok { length, presentation, easing } := by
  rw [eased, build, Arith.lt_rat, ok_bind, Arith.ofInt_rat, Int.cast_zero,
    decide_eq_false (not_lt.mpr hlength)]
  rfl

section Eased

variable [Spring.Animated ℚ] {t : Transition ℚ} {e : Easing}

/-- Within the window the progress is the shape of the easing at the share of the window. -/
theorem progress_rat (hspring : t.spring = none) (heasing : t.easing = e.apply)
    (hrises : Rises e.shape) (hlength : 0 < t.length) {offset : ℚ} (hlow : 0 ≤ offset)
    (hhigh : offset ≤ t.length) (fps : ℚ) :
    t.progress offset fps = .ok (e.shape (offset / t.length)) := by
  have hshare : 0 ≤ offset / t.length := div_nonneg hlow hlength.le
  have hshare' : offset / t.length ≤ 1 := (div_le_one hlength).mpr hhigh
  obtain ⟨hzero, hone⟩ := hrises.mem hshare hshare'
  have hdrive : t.drive fps = .easing e.apply := by rw [drive, hspring, heasing]
  calc t.progress offset fps = (e.apply (offset / t.length) >>= Arith.saturate) := by
        rw [progress, hdrive, Drive.progress, Arith.div_rat hlength.ne', ok_bind]
    _ = Arith.saturate (e.shape (offset / t.length)) := by
        rw [e.apply_rat_of_mem hshare hshare', ok_bind]
    _ = .ok (e.shape (offset / t.length)) := by
        rw [Arith.saturate_rat, min_eq_right hone, max_eq_right hzero]

end Eased

/-- An eased transition of any presentation, unless its easing bounces: its progress starts at zero,
never falls and ends at one; at zero the outgoing layer is as if alone and at one the incoming one;
and from any offset to a later one the outgoing layer gives way to the incoming one. -/
theorem transitions_give_way [Spring.Animated ℚ] (p : Presentation) {e : Easing}
    (he : e ≠ .easeOutBounce) {length : ℚ} (hlength : 0 < length) (fps : ℚ) :
    ∃ t, eased length (.known p) e.apply = .ok t ∧
      t.progress 0 fps = .ok 0 ∧ t.progress length fps = .ok 1 ∧
      (∃ incoming, Presentation.effectsOf t.presentation (0 : ℚ) = .ok (.full, incoming)) ∧
      (∃ outgoing, Presentation.effectsOf t.presentation (1 : ℚ) = .ok (outgoing, .full)) ∧
      ∀ a b, 0 ≤ a → a ≤ b → b ≤ length →
        ∃ x y, t.progress a fps = .ok x ∧ t.progress b fps = .ok y ∧ 0 ≤ x ∧ x ≤ y ∧ y ≤ 1 ∧
          ∃ earlier later, Presentation.effectsOf t.presentation x = .ok earlier ∧
            Presentation.effectsOf t.presentation y = .ok later ∧ p.GivesWay earlier later := by
  have hrises := Easing.shape_rises he
  have hprogress : ∀ offset, 0 ≤ offset → offset ≤ length →
      progress { length, presentation := .known p, easing := e.apply } offset fps =
        .ok (e.shape (offset / length)) := fun offset hlow hhigh =>
    progress_rat rfl rfl hrises hlength hlow hhigh fps
  refine ⟨_, eased_rat hlength.le _ _, ?_, ?_, ?_, ?_, fun a b ha hab hb => ?_⟩
  · rw [hprogress 0 le_rfl hlength.le, zero_div, hrises.zero]
  · rw [hprogress length hlength.le le_rfl, div_self hlength.ne', hrises.one]
  · exact ⟨(p.exact 0).2, (p.effects_rat 0).trans (by rw [← p.exact_zero_outgoing])⟩
  · exact ⟨(p.exact 1).1, (p.effects_rat 1).trans (by rw [← p.exact_one_incoming])⟩
  · have hshare : a / length ≤ b / length := by gcongr
    have hlow : 0 ≤ a / length := div_nonneg ha hlength.le
    have hhigh : b / length ≤ 1 := (div_le_one hlength).mpr hb
    have hx := (hrises.mem hlow (hshare.trans hhigh)).1
    have hxy := hrises.le hlow hshare hhigh
    have hy := (hrises.mem (hlow.trans hshare) hhigh).2
    exact ⟨_, _, hprogress a ha (hab.trans hb), hprogress b (ha.trans hab) hb, hx, hxy, hy,
      _, _, p.effects_rat _, p.effects_rat _, p.exact_givesWay hx hxy hy⟩

/-- Halfway through ten frames a layer that zooms out is no farther from its size than after two. -/
theorem transitions_give_way_zoomOut :
    Easing.smoothStep ≠ .easeOutBounce ∧ (0 : ℚ) < 10 ∧
      ∃ t, eased (10 : ℚ) (.known .zoomOut) Easing.smoothStep.apply = .ok t ∧
        ∃ x y, @progress ℚ _ Timeline.heldSprings t 2 30 = .ok x ∧
          @progress ℚ _ Timeline.heldSprings t 5 30 = .ok y ∧ x ≤ y ∧
          ∃ earlier later, Presentation.zoomOut.effects x = .ok earlier ∧
            Presentation.zoomOut.effects y = .ok later ∧
              Presentation.Approaches 1 earlier.2.scale later.2.scale := by
  let _ := Timeline.heldSprings
  obtain ⟨t, ht, -, -, -, -, hway⟩ := transitions_give_way .zoomOut (e := .smoothStep) nofun
    (show (0 : ℚ) < 10 by norm_num) 30
  obtain ⟨x, y, hx, hy, -, hxy, -, earlier, later, hearlier, hlater, hgives⟩ :=
    hway 2 5 (by norm_num) (by norm_num) (by norm_num)
  cases (eased_rat (by norm_num) _ _).symm.trans ht
  exact ⟨nofun, by norm_num, _, ht, x, y, hx, hy, hxy, earlier, later, hearlier, hlater,
    hgives.zooms (.inr rfl)⟩

end Transition

end Showreel
