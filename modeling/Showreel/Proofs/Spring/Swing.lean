import Mathlib.Analysis.Calculus.Deriv.MeanValue
import Mathlib.Analysis.SpecialFunctions.ExpDeriv
import Mathlib.Analysis.SpecialFunctions.Trigonometric.Deriv
import Showreel.Proofs.Spring.Response

/-!
# Turning points of a spring

A spring that swings turns at the multiples of its half period. There its gap is at a peak, from
each turning point to the next the gap runs in one direction, and the peaks shrink. So what the gap
reaches from some time on is told by that time and the first peak that comes after it; for the gaps
on one side of one, by the first peak on that side.
-/

namespace Showreel.Spring

namespace Oscillator

/-- The angular frequency at which the spring swings. -/
noncomputable def damped (o : Oscillator ℝ) : ℝ := o.frequency * √(1 - o.ratio * o.ratio)

/-- The times at which a swinging spring turns. -/
noncomputable def turn (o : Oscillator ℝ) (k : Nat) : ℝ := k * Real.pi / o.damped

/-- The distance from one at a turning point. -/
noncomputable def peak (o : Oscillator ℝ) (k : Nat) : ℝ :=
  Real.exp (-o.ratio * o.frequency * o.turn k)

/-- How far the position is from one, if it is clamped not beyond it. -/
noncomputable def distance (o : Oscillator ℝ) (clamped : Bool) (t : ℝ) : ℝ :=
  if clamped then max (o.gap t) 0 else |o.gap t|

theorem turn_zero (o : Oscillator ℝ) : o.turn 0 = 0 := by
  rw [turn, Nat.cast_zero, zero_mul, zero_div]

theorem distance_nonneg (o : Oscillator ℝ) (clamped : Bool) (t : ℝ) : 0 ≤ o.distance clamped t := by
  unfold distance
  split
  case isTrue => exact le_max_right _ _
  case isFalse => exact abs_nonneg _

theorem distance_le_abs_gap (o : Oscillator ℝ) (clamped : Bool) (t : ℝ) :
    o.distance clamped t ≤ |o.gap t| := by
  unfold distance
  split
  case isTrue => exact max_le (le_abs_self _) (abs_nonneg _)
  case isFalse => exact le_rfl

/-- The distance is below a limit if the gap is on both sides, or on the one that is left. -/
theorem distance_lt_iff {o : Oscillator ℝ} {clamped : Bool} {t limit : ℝ} (hlimit : 0 < limit) :
    o.distance clamped t < limit ↔ ∀ k, (clamped = true → Even k) → (-1) ^ k * o.gap t < limit := by
  cases clamped with
  | true =>
    rw [distance, if_pos rfl, max_lt_iff, and_iff_left hlimit]
    constructor
    · intro hgap k hk
      rwa [(hk rfl).neg_one_pow, one_mul]
    · intro hall
      simpa using hall 0 fun _ => Even.zero
  | false =>
    rw [distance, if_neg Bool.false_ne_true, abs_lt]
    constructor
    · intro hgap k _
      rcases Nat.even_or_odd k with hk | hk
      · rw [hk.neg_one_pow, one_mul]
        exact hgap.2
      · rw [hk.neg_one_pow, neg_one_mul]
        linarith
    · intro hall
      have hupper := hall 0 nofun
      have hlower := hall 1 nofun
      rw [pow_zero, one_mul] at hupper
      rw [pow_one, neg_one_mul] at hlower
      exact ⟨by linarith, hupper⟩

theorem abs_neg_one_pow_mul (k : Nat) (x : ℝ) : |(-1) ^ k * x| = |x| := by
  rw [abs_mul, abs_pow, abs_neg, abs_one, one_pow, one_mul]

namespace IsPhysical

variable {o : Oscillator ℝ} (h : o.IsPhysical) (hswing : o.ratio < 1)

include h hswing

theorem damped_pos : 0 < o.damped := by
  have hrest : 0 < 1 - o.ratio * o.ratio := by nlinarith [h.ratio_nonneg]
  exact mul_pos h.frequency_pos (Real.sqrt_pos.mpr hrest)

theorem damped_mul_turn (k : Nat) : o.damped * o.turn k = k * Real.pi :=
  mul_div_cancel₀ _ (h.damped_pos hswing).ne'

theorem turn_mono {j k : Nat} (hjk : j ≤ k) : o.turn j ≤ o.turn k := by
  have := h.damped_pos hswing
  have := Real.pi_pos
  unfold turn
  gcongr

theorem peak_antitone {j k : Nat} (hjk : j ≤ k) : o.peak k ≤ o.peak j := by
  have hrate : 0 ≤ o.ratio * o.frequency := mul_nonneg h.ratio_nonneg h.frequency_pos.le
  have hturn := mul_le_mul_of_nonneg_left (h.turn_mono hswing hjk) hrate
  exact Real.exp_le_exp.mpr (by linarith)

theorem turn_nonneg (k : Nat) : 0 ≤ o.turn k :=
  div_nonneg (mul_nonneg k.cast_nonneg Real.pi_pos.le) (h.damped_pos hswing).le

/-- Every time lies between two turning points. -/
theorem exists_turn_le_lt {t : ℝ} (ht : 0 ≤ t) : ∃ k, o.turn k ≤ t ∧ t < o.turn (k + 1) := by
  have hdamped := h.damped_pos hswing
  have hhalves : 0 ≤ o.damped * t / Real.pi :=
    div_nonneg (mul_nonneg hdamped.le ht) Real.pi_pos.le
  refine ⟨⌊o.damped * t / Real.pi⌋₊, ?_, ?_⟩
  · rw [turn, div_le_iff₀ hdamped, ← le_div_iff₀ Real.pi_pos, mul_comm t]
    exact Nat.floor_le hhalves
  · rw [turn, lt_div_iff₀ hdamped, ← div_lt_iff₀ Real.pi_pos, mul_comm t, Nat.cast_succ]
    exact Nat.lt_floor_add_one _

/-- The gap has the slope of a sine under the envelope. -/
theorem hasDerivAt_gap (t : ℝ) : HasDerivAt o.gap
    (-(o.frequency ^ 2 / o.damped * Real.exp (-o.ratio * o.frequency * t) *
      Real.sin (o.damped * t))) t := by
  have hdamped : o.damped ≠ 0 := (h.damped_pos hswing).ne'
  have hrest : 0 ≤ 1 - o.ratio * o.ratio := by nlinarith [h.ratio_nonneg]
  have hsq : o.damped ^ 2 = o.frequency ^ 2 * (1 - o.ratio * o.ratio) := by
    rw [damped, mul_pow, Real.sq_sqrt hrest]
  have henvelope : HasDerivAt (fun t => Real.exp (-o.ratio * o.frequency * t))
      (Real.exp (-o.ratio * o.frequency * t) * (-o.ratio * o.frequency)) t := by
    simpa using ((hasDerivAt_id t).const_mul (-o.ratio * o.frequency)).exp
  have hangle : HasDerivAt (fun t => o.damped * t) o.damped t := by
    simpa using (hasDerivAt_id t).const_mul o.damped
  have hswings : HasDerivAt
      (fun t => Real.cos (o.damped * t) +
        o.ratio * o.frequency / o.damped * Real.sin (o.damped * t))
      (-Real.sin (o.damped * t) * o.damped +
        o.ratio * o.frequency / o.damped * (Real.cos (o.damped * t) * o.damped)) t :=
    hangle.cos.add (hangle.sin.const_mul (o.ratio * o.frequency / o.damped))
  have hgap : o.gap = fun t => Real.exp (-o.ratio * o.frequency * t) *
      (Real.cos (o.damped * t) + o.ratio * o.frequency / o.damped * Real.sin (o.damped * t)) := by
    funext t
    exact gap_of_lt_one hswing t
  rw [hgap]
  apply (henvelope.mul hswings).congr_deriv
  generalize Real.sin (o.damped * t) = sine
  field_simp
  linear_combination (-sine) * hsq

/-- At the turning points the gap is at its peaks, on one side of one and the other in turn. -/
theorem gap_turn (k : Nat) : o.gap (o.turn k) = (-1) ^ k * o.peak k := by
  rw [gap_of_lt_one hswing, swingingGap]
  show _ * (Real.cos (o.damped * o.turn k) + _ * Real.sin (o.damped * o.turn k)) = _
  rw [h.damped_mul_turn hswing, Real.cos_nat_mul_pi, Real.sin_nat_mul_pi, mul_zero, add_zero,
    mul_comm]
  rfl

/-- Between two turning points the gap runs from the one peak to the other. -/
theorem antitoneOn_gap (k : Nat) :
    AntitoneOn (fun t => (-1) ^ k * o.gap t) (Set.Icc (o.turn k) (o.turn (k + 1))) := by
  have hderiv (t : ℝ) := (h.hasDerivAt_gap hswing t).const_mul ((-1 : ℝ) ^ k)
  refine antitoneOn_of_deriv_nonpos (convex_Icc _ _)
    (fun t _ => (hderiv t).continuousAt.continuousWithinAt)
    (fun t _ => (hderiv t).differentiableAt.differentiableWithinAt) fun t ht => ?_
  rw [interior_Icc] at ht
  -- the angle since the turning point is at most half a turn
  have hsine : 0 ≤ (-1) ^ k * Real.sin (o.damped * t) := by
    rw [← Real.sin_sub_nat_mul_pi]
    have hdamped := h.damped_pos hswing
    have hfrom := mul_le_mul_of_nonneg_left ht.1.le hdamped.le
    have hto := mul_le_mul_of_nonneg_left ht.2.le hdamped.le
    rw [h.damped_mul_turn hswing] at hfrom hto
    push_cast at hto
    exact Real.sin_nonneg_of_nonneg_of_le_pi (by linarith) (by linarith)
  have hslope : 0 ≤ o.frequency ^ 2 / o.damped * Real.exp (-o.ratio * o.frequency * t) :=
    mul_nonneg (div_nonneg (sq_nonneg _) (h.damped_pos hswing).le) (Real.exp_pos _).le
  rw [(hderiv t).deriv]
  have := mul_nonneg hslope hsine
  linarith

theorem monotoneOn_gap (k : Nat) :
    MonotoneOn (fun t => (-1) ^ (k + 1) * o.gap t) (Set.Icc (o.turn k) (o.turn (k + 1))) := by
  intro t ht t' ht' htt
  have hback := h.antitoneOn_gap hswing k ht ht' htt
  simp only [pow_succ, mul_neg_one, neg_mul] at hback ⊢
  exact neg_le_neg hback

theorem neg_one_pow_mul_gap_turn (k : Nat) : (-1) ^ k * o.gap (o.turn k) = o.peak k := by
  rw [h.gap_turn hswing, ← mul_assoc, ← mul_pow, neg_one_mul, neg_neg, one_pow, one_mul]

/-- From a turning point on the gap keeps within its peak. -/
theorem abs_gap_le_peak {k : Nat} {t : ℝ} (ht : o.turn k ≤ t) : |o.gap t| ≤ o.peak k := by
  obtain ⟨j, hfrom, hto⟩ := h.exists_turn_le_lt hswing ((h.turn_nonneg hswing k).trans ht)
  have hkj : k ≤ j := by
    by_contra hlt
    have hover : o.turn (j + 1) ≤ o.turn k := h.turn_mono hswing (by omega)
    exact (hover.trans ht).not_gt hto
  have hjoin : o.turn j ≤ o.turn (j + 1) := h.turn_mono hswing j.le_succ
  have hupper : (-1) ^ j * o.gap t ≤ o.peak j := by
    rw [← h.neg_one_pow_mul_gap_turn hswing]
    exact h.antitoneOn_gap hswing j ⟨le_rfl, hjoin⟩ ⟨hfrom, hto.le⟩ hfrom
  have hlower : (-1) ^ (j + 1) * o.gap t ≤ o.peak (j + 1) := by
    rw [← h.neg_one_pow_mul_gap_turn hswing]
    exact h.monotoneOn_gap hswing j ⟨hfrom, hto.le⟩ ⟨hjoin, le_rfl⟩ hto.le
  have hshrinks : o.peak (j + 1) ≤ o.peak j := h.peak_antitone hswing j.le_succ
  rw [pow_succ] at hlower
  calc |o.gap t| = |(-1) ^ j * o.gap t| := (abs_neg_one_pow_mul j _).symm
    _ ≤ o.peak j := abs_le.mpr ⟨by linarith, hupper⟩
    _ ≤ o.peak k := h.peak_antitone hswing hkj

/-- Until the peak to come on a side of one, the gaps on that side stay below what they are now and
that peak; thereafter below the peak. -/
theorem side_lt {k : Nat} {start limit t : ℝ} (hstart : 0 ≤ start) (ht : start ≤ t)
    (hlast : ∀ j, j + 2 = k → o.turn j ≤ start) (hnow : (-1) ^ k * o.gap start < limit)
    (hpeak : o.peak k < limit) : (-1) ^ k * o.gap t < limit := by
  rcases le_or_gt (o.turn k) t with hafter | hbefore
  · calc (-1) ^ k * o.gap t ≤ |(-1) ^ k * o.gap t| := le_abs_self _
      _ = |o.gap t| := abs_neg_one_pow_mul k _
      _ ≤ o.peak k := h.abs_gap_le_peak hswing hafter
      _ < limit := hpeak
  have hturn : (-1) ^ k * o.gap (o.turn k) < limit := by rwa [h.neg_one_pow_mul_gap_turn hswing]
  have hpast : o.turn 0 ≤ t := by
    rw [turn_zero]
    exact hstart.trans ht
  cases k with
  | zero => exact absurd hbefore hpast.not_gt
  | succ k =>
    rcases le_or_gt (o.turn k) t with hrises | hfalls
    · have hjoin : o.turn k ≤ o.turn (k + 1) := h.turn_mono hswing k.le_succ
      exact (h.monotoneOn_gap hswing k ⟨hrises, hbefore.le⟩ ⟨hjoin, le_rfl⟩ hbefore.le).trans_lt
        hturn
    · cases k with
      | zero => exact absurd hfalls hpast.not_gt
      | succ k =>
        have hover : o.turn k ≤ start := hlast k rfl
        have hfall := h.antitoneOn_gap hswing k ⟨hover, ht.trans hfalls.le⟩
          ⟨hover.trans ht, hfalls.le⟩ ht
        have hsame (x : ℝ) : (-1) ^ (k + 1 + 1) * x = (-1) ^ k * x := by
          rw [pow_succ, pow_succ]
          ring
        rw [hsame] at hnow ⊢
        exact hfall.trans_lt hnow

/-- There is a first turning point at a time or after it, on both sides or on the lower one. -/
theorem exists_isLeast_turn (start : ℝ) (clamped : Bool) :
    ∃ k, IsLeast {k | start ≤ o.turn k ∧ (clamped = true → Even k)} k := by
  have hne : {k | start ≤ o.turn k ∧ (clamped = true → Even k)}.Nonempty := by
    refine ⟨2 * ⌈start * o.damped / Real.pi⌉₊, ?_, fun _ => even_two_mul _⟩
    refine le_trans ?_ (h.turn_mono hswing (Nat.le_mul_of_pos_left _ two_pos))
    rw [turn, le_div_iff₀ (h.damped_pos hswing), ← div_le_iff₀ Real.pi_pos]
    exact Nat.le_ceil _
  exact ⟨_, Nat.sInf_mem hne, fun _ => Nat.sInf_le⟩

/-- From a time at which the distance is below a limit on, it stays there exactly if the first peak
to come is. -/
theorem forall_distance_lt_iff {k : Nat} {start limit : ℝ} {clamped : Bool} (hstart : 0 ≤ start)
    (hnow : o.distance clamped start < limit)
    (hk : IsLeast {k | start ≤ o.turn k ∧ (clamped = true → Even k)} k) :
    (∀ t, start ≤ t → o.distance clamped t < limit) ↔ o.peak k < limit := by
  have hlimit : 0 < limit := (o.distance_nonneg clamped start).trans_lt hnow
  obtain ⟨⟨hcomes, hside⟩, hfirst⟩ := hk
  constructor
  · intro hall
    rw [← h.neg_one_pow_mul_gap_turn hswing]
    exact (distance_lt_iff hlimit).mp (hall _ hcomes) k hside
  · intro hpeak t ht
    have hsides := (distance_lt_iff hlimit).mp hnow
    refine (distance_lt_iff hlimit).mpr fun j hj => ?_
    by_cases hsame : Even (j + k)
    · have hsign : (-1 : ℝ) ^ j = (-1) ^ k := neg_one_pow_congr (Nat.even_add.mp hsame)
      have hlast : ∀ i, i + 2 = k → o.turn i ≤ start := by
        intro i hi
        by_contra hlate
        have hpast := hfirst ⟨(not_le.mp hlate).le,
          fun hclamped => (Nat.even_add.mp (hi ▸ hside hclamped)).mpr even_two⟩
        omega
      rw [hsign]
      exact h.side_lt hswing hstart ht hlast (hsides k hside) hpeak
    · have hfree : clamped ≠ true :=
        fun hclamped => hsame ((hj hclamped).add (hside hclamped))
      have hsign : (-1 : ℝ) ^ j = (-1) ^ (k + 1) := by
        apply neg_one_pow_congr
        rw [Nat.even_add_one]
        rw [Nat.even_add] at hsame
        tauto
      have hlast : ∀ i, i + 2 = k + 1 → o.turn i ≤ start := by
        intro i hi
        by_contra hlate
        have hpast := hfirst ⟨(not_le.mp hlate).le, fun hclamped => absurd hclamped hfree⟩
        omega
      have hnext : o.peak (k + 1) < limit := (h.peak_antitone hswing k.le_succ).trans_lt hpeak
      rw [hsign]
      exact h.side_lt hswing hstart ht hlast (hsides (k + 1) fun hclamped => absurd hclamped hfree)
        hnext

end IsPhysical

end Oscillator

/-! ## Springs of unit mass -/

/-- The spring of unit mass that decays at a rate and swings at a frequency. -/
noncomputable def swingingSpring (rate damped : ℝ) : Config ℝ :=
  { mass := 1, damping := rate + rate, stiffness := rate ^ 2 + damped ^ 2 }

/-- An oscillator that decays at a rate and swings at a frequency. -/
structure Oscillator.Swings (o : Oscillator ℝ) (rate damped : ℝ) : Prop where
  ratio_lt : o.ratio < 1
  rate_eq : o.ratio * o.frequency = rate
  damped_eq : o.damped = damped
  frequency_eq : o.frequency = √(rate ^ 2 + damped ^ 2)

theorem swingingSpring_isPhysical {rate damped : ℝ} (hrate : 0 ≤ rate) (hdamped : 0 < damped) :
    (swingingSpring rate damped).IsPhysical :=
  ⟨one_pos, by unfold swingingSpring; positivity, by unfold swingingSpring; positivity⟩

theorem swingingSpring_swings {rate damped : ℝ} {o : Oscillator ℝ} (hrate : 0 ≤ rate)
    (hdamped : 0 < damped) (ho : (swingingSpring rate damped).oscillator = .ok o) :
    o.Swings rate damped := by
  have hstiffness : 0 < rate ^ 2 + damped ^ 2 := by positivity
  have hfrequency : 0 < √(rate ^ 2 + damped ^ 2) := Real.sqrt_pos.mpr hstiffness
  rw [(swingingSpring_isPhysical hrate hdamped).oscillator_eq] at ho
  cases ho
  simp only [swingingSpring, div_one, mul_one, ← two_mul rate,
    mul_div_mul_left rate _ two_ne_zero]
  have hratio : rate / √(rate ^ 2 + damped ^ 2) * (rate / √(rate ^ 2 + damped ^ 2)) =
      rate ^ 2 / (rate ^ 2 + damped ^ 2) := by
    rw [div_mul_div_comm, Real.mul_self_sqrt hstiffness.le, sq]
  refine ⟨?_, div_mul_cancel₀ _ hfrequency.ne', ?_, rfl⟩
  · show rate / √(rate ^ 2 + damped ^ 2) < 1
    rw [div_lt_one hfrequency]
    exact Real.lt_sqrt_of_sq_lt (by nlinarith)
  · have hrest : 1 - rate ^ 2 / (rate ^ 2 + damped ^ 2) = damped ^ 2 / (rate ^ 2 + damped ^ 2) := by
      field_simp
      ring
    rw [Oscillator.damped]
    dsimp only
    rw [hratio, hrest, Real.sqrt_div (sq_nonneg _), Real.sqrt_sq hdamped.le,
      mul_div_cancel₀ _ hfrequency.ne']

namespace Oscillator.Swings

variable {o : Oscillator ℝ} {rate damped : ℝ} (h : o.Swings rate damped)

include h

theorem gap_eq (t : ℝ) : o.gap t = Real.exp (-rate * t) *
    (Real.cos (damped * t) + rate / damped * Real.sin (damped * t)) := by
  rw [gap_of_lt_one h.ratio_lt, swingingGap]
  show Real.exp (-o.ratio * o.frequency * t) * (Real.cos (o.damped * t) +
    o.ratio * o.frequency / o.damped * Real.sin (o.damped * t)) = _
  rw [neg_mul o.ratio, h.rate_eq, h.damped_eq]

theorem bound_eq (hdamped : 0 < damped) (t : ℝ) :
    o.bound t = Real.exp (-rate * t) * (√(rate ^ 2 + damped ^ 2) / damped) := by
  have hfrequency : o.frequency ≠ 0 := by
    intro hzero
    have hstill := h.damped_eq
    rw [Oscillator.damped, hzero, zero_mul] at hstill
    exact hdamped.ne hstill
  have hroot : √(1 - o.ratio * o.ratio) = damped / o.frequency := by
    rw [← h.damped_eq, Oscillator.damped, mul_div_cancel_left₀ _ hfrequency]
  rw [bound, if_pos h.ratio_lt, neg_mul o.ratio, h.rate_eq, hroot, ← h.frequency_eq,
    div_div_eq_mul_div, mul_div_assoc]

theorem peak_eq (k : Nat) : o.peak k = Real.exp (-rate * (k * Real.pi / damped)) := by
  rw [peak, turn, neg_mul o.ratio, h.rate_eq, h.damped_eq]

end Oscillator.Swings

end Showreel.Spring
