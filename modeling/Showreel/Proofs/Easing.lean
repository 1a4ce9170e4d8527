import Mathlib.Order.Monotone.Defs
import Mathlib.Order.Interval.Set.Defs
import Mathlib.Tactic.Linarith
import Mathlib.Tactic.Positivity
import Showreel.Easing
import Showreel.Proofs.Arith.Rational

/-!
# Exact easings

In exact arithmetic every easing has a value at every progress, that of its shape at the saturated
progress. All shapes start at zero and stay between zero and one; all but the bouncing one rise from
the one to the other.
-/

namespace Showreel

namespace Easing

open Arith

/-- The parabola of one bounce. -/
def arc (t centre lift : ℚ) : ℚ := 121 / 16 * (t - centre / (11 / 4)) ^ 2 + lift

/-- What an easing makes of a progress between zero and one. -/
def shape : Easing → ℚ → ℚ
  | linear, t => t
  | easeOutCubic, t => 1 - (1 - t) ^ 3
  | easeInOutCubic, t => if t < 1 / 2 then 4 * t ^ 3 else 1 - (2 - 2 * t) ^ 3 / 2
  | easeOutQuad, t => 1 - (1 - t) ^ 2
  | easeOutBounce, t =>
    if t < 1 / (11 / 4) then arc t 0 0
    else if t < 2 / (11 / 4) then arc t (3 / 2) (3 / 4)
    else if t < 5 / 2 / (11 / 4) then arc t (9 / 4) (15 / 16)
    else arc t (21 / 8) (63 / 64)
  | smoothStep, t => t ^ 2 * (3 - 2 * t)

theorem decelerate_rat (n : Nat) (t : ℚ) : decelerate n t = .ok (1 - (1 - t) ^ n) := by
  rw [decelerate, one_rat]
  rfl

theorem accelerateDecelerate_rat (t : ℚ) :
    accelerateDecelerate t = .ok (easeInOutCubic.shape t) := by
  have hfour : @OfScientific.ofScientific ℚ Arith.toOfScientific 40 true 1 = 4 := by
    rw [ofScientific_rat]
    norm_num
  unfold accelerateDecelerate shape
  rw [lt_rat, half_rat, ok_bind]
  by_cases h : t < 1 / 2
  · simp only [h, decide_true, if_true, hfour, mul_rat, ok_bind]
    congr 1
    ring
  · simp only [h, decide_false, Bool.false_eq_true, if_false, two_rat, one_rat, mul_rat, add_rat,
      ok_bind, sub_rat, ofInt_rat]
    rw [show power (↑(-2 : ℤ) * t + 2) 3 = .ok ((↑(-2 : ℤ) * t + 2) ^ 3) from rfl, ok_bind,
      div_rat two_ne_zero, ok_bind]
    congr 1
    push_cast
    ring

/-- The width that bounces are counted in, and the steepness of their parabolas. -/
theorem bounce_scale_rat : @OfScientific.ofScientific ℚ Arith.toOfScientific 275 true 2 = 11 / 4 ∧
    @OfScientific.ofScientific ℚ Arith.toOfScientific 75625 true 4 = 121 / 16 := by
  rw [ofScientific_rat, ofScientific_rat]
  norm_num

theorem bounceArc_rat (t centre lift : ℚ) : bounceArc t centre lift = .ok (arc t centre lift) := by
  unfold bounceArc arc
  rw [bounce_scale_rat.1, bounce_scale_rat.2, div_rat (by norm_num), ok_bind]
  simp only [sub_rat, mul_rat, add_rat, ok_bind]
  congr 1
  ring

theorem bounce_rat (t : ℚ) : bounce t = .ok (easeOutBounce.shape t) := by
  have hbound (x : ℚ) : div x (11 / 4) = .ok (x / (11 / 4)) := div_rat (by norm_num) x
  have hthird : @OfScientific.ofScientific ℚ Arith.toOfScientific 25 true 1 = 5 / 2 := by
    rw [ofScientific_rat]
    norm_num
  unfold bounce shape
  simp only [bounce_scale_rat.1, bounce_scale_rat.2, one_rat, two_rat, hthird, hbound,
    bounceArc_rat, lt_rat, mul_rat, ok_bind, decide_eq_true_eq]
  split_ifs
  · congr 1
    unfold arc
    ring
  · norm_num [ofScientific_rat]
  · norm_num [ofScientific_rat]
  · norm_num [ofScientific_rat]

theorem hermite_rat (t : ℚ) : hermite t = .ok (smoothStep.shape t) := by
  have hthree : @OfScientific.ofScientific ℚ Arith.toOfScientific 30 true 1 = 3 := by
    rw [ofScientific_rat]
    norm_num
  unfold hermite shape
  simp only [two_rat, hthree, mul_rat, sub_rat, ok_bind]
  congr 1
  ring

/-- An easing is its shape at the saturated progress. -/
theorem apply_rat (e : Easing) (x : ℚ) : e.apply x = .ok (e.shape (max 0 (min 1 x))) := by
  rw [apply, saturate_rat, ok_bind]
  cases e with
  | linear => rfl
  | easeOutCubic => exact decelerate_rat 3 _
  | easeInOutCubic => exact accelerateDecelerate_rat _
  | easeOutQuad => exact decelerate_rat 2 _
  | easeOutBounce => exact bounce_rat _
  | smoothStep => exact hermite_rat _

theorem hermite_sub (s t : ℚ) : smoothStep.shape t - smoothStep.shape s =
    (3 * (t + s) - 2 * (t ^ 2 + t * s + s ^ 2)) * (t - s) := by
  simp only [shape]
  ring

theorem hermite_slope_nonneg {s t : ℚ} (hs : s ∈ Set.Icc 0 1) (ht : t ∈ Set.Icc 0 1) :
    0 ≤ 3 * (t + s) - 2 * (t ^ 2 + t * s + s ^ 2) := by
  have hsquare {x : ℚ} (hx : x ∈ Set.Icc 0 1) : x ^ 2 ≤ x := by
    rw [sq]
    exact mul_le_of_le_one_left hx.1 hx.2
  have hmean : t * s ≤ t ∧ t * s ≤ s :=
    ⟨mul_le_of_le_one_right ht.1 hs.2, mul_le_of_le_one_left hs.1 ht.2⟩
  linarith [hsquare hs, hsquare ht, hmean.1, hmean.2]

end Easing

/-! ## Rising shapes -/

/-- A shape of progress that rises from zero to one. -/
structure Rises (f : ℚ → ℚ) : Prop where
  zero : f 0 = 0
  one : f 1 = 1
  mono : MonotoneOn f (Set.Icc 0 1)

namespace Rises

variable {f : ℚ → ℚ}

theorem le (h : Rises f) {s t : ℚ} (hs : 0 ≤ s) (hst : s ≤ t) (ht : t ≤ 1) : f s ≤ f t :=
  h.mono ⟨hs, hst.trans ht⟩ ⟨hs.trans hst, ht⟩ hst

/-- A rising shape keeps the unit interval. -/
theorem mem (h : Rises f) {t : ℚ} (ht : 0 ≤ t) (ht' : t ≤ 1) : 0 ≤ f t ∧ f t ≤ 1 := by
  have hlow := h.le le_rfl ht ht'
  have hhigh := h.le ht ht' le_rfl
  rw [h.zero] at hlow
  rw [h.one] at hhigh
  exact ⟨hlow, hhigh⟩

theorem decelerate {n : Nat} (hn : n ≠ 0) : Rises fun t => 1 - (1 - t) ^ n where
  zero := by rw [sub_zero, one_pow, sub_self]
  one := by rw [sub_self, zero_pow hn, sub_zero]
  mono s _ t ht hst := by
    have hrest : (1 - t) ^ n ≤ (1 - s) ^ n :=
      pow_le_pow_left₀ (sub_nonneg.mpr ht.2) (sub_le_sub_left hst 1) n
    exact sub_le_sub_left hrest 1

/-- A cubic and its point reflection meet at one half. -/
theorem accelerateDecelerate : Rises Easing.easeInOutCubic.shape where
  zero := by norm_num [Easing.shape]
  one := by norm_num [Easing.shape]
  mono s hs t ht hst := by
    have hearly {x : ℚ} (hx : x < 1 / 2) : Easing.easeInOutCubic.shape x = 4 * x ^ 3 := if_pos hx
    have hlate {x : ℚ} (hx : ¬ x < 1 / 2) :
        Easing.easeInOutCubic.shape x = 1 - (2 - 2 * x) ^ 3 / 2 := if_neg hx
    by_cases hs' : s < 1 / 2
    · by_cases ht' : t < 1 / 2
      · rw [hearly hs', hearly ht']
        have hcubed := pow_le_pow_left₀ hs.1 hst 3
        linarith
      · rw [hearly hs', hlate ht']
        have hcubed := pow_le_pow_left₀ hs.1 hs'.le 3
        have hrest := pow_le_pow_left₀ (by linarith [ht.2] : 0 ≤ 2 - 2 * t)
          (by linarith [not_lt.mp ht'] : 2 - 2 * t ≤ 1) 3
        linarith
    · have ht' : ¬ t < 1 / 2 := fun h => hs' (hst.trans_lt h)
      rw [hlate hs', hlate ht']
      have hrest := pow_le_pow_left₀ (by linarith [ht.2] : 0 ≤ 2 - 2 * t)
        (by linarith : 2 - 2 * t ≤ 2 - 2 * s) 3
      linarith

theorem hermite : Rises Easing.smoothStep.shape where
  zero := by norm_num [Easing.shape]
  one := by norm_num [Easing.shape]
  mono s hs t ht hst := by
    have hproduct := mul_nonneg (Easing.hermite_slope_nonneg hs ht) (sub_nonneg.mpr hst)
    rw [← Easing.hermite_sub] at hproduct
    exact sub_nonneg.mp hproduct

end Rises

/-- Every easing but the bouncing one rises. -/
theorem Easing.shape_rises {e : Easing} (he : e ≠ .easeOutBounce) : Rises e.shape := by
  cases e with
  | linear => exact ⟨rfl, rfl, fun _ _ _ _ h => h⟩
  | easeOutCubic => exact .decelerate three_ne_zero
  | easeInOutCubic => exact .accelerateDecelerate
  | easeOutQuad => exact .decelerate two_ne_zero
  | easeOutBounce => exact absurd rfl he
  | smoothStep => exact .hermite

theorem Easing.apply_rat_of_mem (e : Easing) {x : ℚ} (hx : 0 ≤ x) (hx' : x ≤ 1) :
    e.apply x = .ok (e.shape x) := by
  rw [apply_rat, min_eq_right hx', max_eq_right hx]

/-! ## Shapes in the unit interval -/

namespace Easing

/-- A bounce that reaches one at the ends of a stretch stays between its lift and one there. -/
theorem arc_mem {t centre lift : ℚ} (width : ℚ) (hlift : 0 ≤ lift)
    (hwidth : |t - centre / (11 / 4)| ≤ width) (hends : 121 / 16 * width ^ 2 + lift = 1) :
    0 ≤ arc t centre lift ∧ arc t centre lift ≤ 1 := by
  have hsquare : (t - centre / (11 / 4)) ^ 2 ≤ width ^ 2 :=
    sq_le_sq' (abs_le.mp hwidth).1 (abs_le.mp hwidth).2
  unfold arc
  constructor
  · positivity
  · linarith

/-- The four bounces reach one where they meet, and each has its centre halfway. -/
theorem bounce_mem {t : ℚ} (ht : 0 ≤ t) (ht' : t ≤ 1) :
    0 ≤ easeOutBounce.shape t ∧ easeOutBounce.shape t ≤ 1 := by
  simp only [shape]
  split_ifs with hfirst hsecond hthird
  · exact arc_mem (4 / 11) le_rfl (abs_le.mpr ⟨by linarith, by linarith⟩) (by norm_num)
  · exact arc_mem (2 / 11) (by norm_num) (abs_le.mpr ⟨by linarith, by linarith⟩)
      (by norm_num)
  · exact arc_mem (1 / 11) (by norm_num) (abs_le.mpr ⟨by linarith, by linarith⟩)
      (by norm_num)
  · exact arc_mem (1 / 22) (by norm_num) (abs_le.mpr ⟨by linarith, by linarith⟩)
      (by norm_num)

/-- Every easing keeps the unit interval, the bouncing one included. -/
theorem shape_mem (e : Easing) {t : ℚ} (ht : 0 ≤ t) (ht' : t ≤ 1) :
    0 ≤ e.shape t ∧ e.shape t ≤ 1 := by
  by_cases he : e = .easeOutBounce
  · rw [he]
    exact bounce_mem ht ht'
  · exact (shape_rises he).mem ht ht'

theorem shape_zero (e : Easing) : e.shape 0 = 0 := by
  by_cases he : e = .easeOutBounce
  · rw [he]
    norm_num [shape, arc]
  · exact (shape_rises he).zero

theorem shape_one (e : Easing) : e.shape 1 = 1 := by
  by_cases he : e = .easeOutBounce
  · rw [he]
    norm_num [shape, arc]
  · exact (shape_rises he).one

end Easing

end Showreel
