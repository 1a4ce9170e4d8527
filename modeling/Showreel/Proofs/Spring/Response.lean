import Mathlib.Analysis.Convex.SpecificFunctions.Basic
import Showreel.Proofs.Arith.Real
import Showreel.Proofs.Spring.Config
import Showreel.Spring.Response

/-!
# Exact step responses

With exact roots, exponentials and periodic functions, the position of a released spring is one less
a gap with a closed form in each damping regime. The gap of a spring that creeps only shrinks; the
one of a spring that swings keeps below its envelope, which shrinks. Hence nothing in the formulas
of a spring divides by zero, and the error bound at a time holds ever after.
-/

namespace Showreel.Spring

open Arith Analytic Measured

/-! ## Gaps -/

/-- The gap of a swinging spring. -/
noncomputable def swingingGap (frequency ratio t : ℝ) : ℝ :=
  let damped := frequency * √(1 - ratio * ratio)
  Real.exp (-ratio * frequency * t) *
    (Real.cos (damped * t) + ratio * frequency / damped * Real.sin (damped * t))

/-- The gap of a critically damped spring. -/
noncomputable def criticalGap (frequency t : ℝ) : ℝ :=
  Real.exp (-frequency * t) * (1 + frequency * t)

/-- The gap of a creeping spring whose equation has two roots. -/
noncomputable def creepingGap (slow fast t : ℝ) : ℝ :=
  (fast * Real.exp (slow * t) - slow * Real.exp (fast * t)) / (fast - slow)

theorem abs_cos_add_mul_sin_le (k x : ℝ) : |Real.cos x + k * Real.sin x| ≤ √(1 + k * k) := by
  -- the sum and its quarter turn are the sides of a right triangle
  have hsides : (Real.cos x + k * Real.sin x) ^ 2 + (Real.sin x - k * Real.cos x) ^ 2 =
      1 + k * k := by
    linear_combination (1 + k * k) * Real.sin_sq_add_cos_sq x
  have hturned := sq_nonneg (Real.sin x - k * Real.cos x)
  exact Real.abs_le_sqrt (by linarith)

/-- The amplitude of the sum of both swings is the one of the envelope. -/
theorem abs_swingingGap_le {frequency ratio : ℝ} (hf : 0 < frequency) (hlow : 0 ≤ ratio)
    (hhigh : ratio < 1) (t : ℝ) :
    |swingingGap frequency ratio t| ≤
      Real.exp (-ratio * frequency * t) / √(1 - ratio * ratio) := by
  have hrest : 0 < 1 - ratio * ratio := by nlinarith
  have hroot : 0 < √(1 - ratio * ratio) := Real.sqrt_pos.mpr hrest
  have hsq : √(1 - ratio * ratio) * √(1 - ratio * ratio) = 1 - ratio * ratio :=
    Real.mul_self_sqrt hrest.le
  have hweight : ratio * frequency / (frequency * √(1 - ratio * ratio)) =
      ratio / √(1 - ratio * ratio) := by
    field_simp
  have hamplitude : 1 + ratio / √(1 - ratio * ratio) * (ratio / √(1 - ratio * ratio)) =
      (1 - ratio * ratio)⁻¹ := by
    rw [div_mul_div_comm, hsq, one_add_div hrest.ne', sub_add_cancel, one_div]
  calc |swingingGap frequency ratio t|
      ≤ Real.exp (-ratio * frequency * t) *
          √(1 + ratio / √(1 - ratio * ratio) * (ratio / √(1 - ratio * ratio))) := by
        rw [swingingGap, abs_mul, abs_of_pos (Real.exp_pos _), hweight]
        exact mul_le_mul_of_nonneg_left (abs_cos_add_mul_sin_le _ _) (Real.exp_pos _).le
    _ = Real.exp (-ratio * frequency * t) / √(1 - ratio * ratio) := by
        rw [hamplitude, Real.sqrt_inv, div_eq_mul_inv]

theorem criticalGap_pos {frequency t : ℝ} (hf : 0 < frequency) (ht : 0 ≤ t) :
    0 < criticalGap frequency t := by
  have := mul_nonneg hf.le ht
  exact mul_pos (Real.exp_pos _) (by linarith)

theorem criticalGap_antitone {frequency t t' : ℝ} (hf : 0 < frequency) (ht : 0 ≤ t)
    (htt : t ≤ t') : criticalGap frequency t' ≤ criticalGap frequency t := by
  have hpast := mul_nonneg hf.le ht
  have hahead := mul_nonneg hf.le (sub_nonneg.mpr htt)
  have hgrowth : 1 + frequency * t' ≤
      Real.exp (frequency * (t' - t)) * (1 + frequency * t) := by
    have hexp := Real.add_one_le_exp (frequency * (t' - t))
    nlinarith
  calc criticalGap frequency t'
      ≤ Real.exp (-frequency * t') *
          (Real.exp (frequency * (t' - t)) * (1 + frequency * t)) :=
        mul_le_mul_of_nonneg_left hgrowth (Real.exp_pos _).le
    _ = criticalGap frequency t := by
        rw [criticalGap, ← mul_assoc, ← Real.exp_add]
        congr 2
        ring

theorem creepingGap_pos {slow fast t : ℝ} (hslow : slow < 0) (hfast : fast < slow) (ht : 0 ≤ t) :
    0 < creepingGap slow fast t := by
  have hle : Real.exp (fast * t) ≤ Real.exp (slow * t) :=
    Real.exp_le_exp.mpr (mul_le_mul_of_nonneg_right hfast.le ht)
  have hpos := Real.exp_pos (fast * t)
  apply div_pos_of_neg_of_neg
  · nlinarith
  · linarith

/-- Over any time the slow part shrinks by a larger share of its weight than the fast one. -/
theorem mul_one_sub_exp_le {slow fast t : ℝ} (hslow : slow < 0) (hfast : fast < slow) :
    -slow * (1 - Real.exp (fast * t)) ≤ -fast * (1 - Real.exp (slow * t)) := by
  -- `slow` lies between zero and `fast`, and the exponential is below its chord there
  have hshare : slow / fast ≤ 1 := (div_le_one_of_neg (hfast.trans hslow)).mpr hfast.le
  have hchord := convexOn_exp.2 (Set.mem_univ 0) (Set.mem_univ (fast * t))
    (sub_nonneg.mpr hshare) (div_nonneg_of_nonpos hslow.le (hfast.trans hslow).le)
    (sub_add_cancel _ _)
  have hplace : (1 - slow / fast) • (0 : ℝ) + (slow / fast) • (fast * t) = slow * t := by
    have := (hfast.trans hslow).ne
    simp only [smul_eq_mul]
    field_simp
    ring
  rw [hplace] at hchord
  simp only [smul_eq_mul, Real.exp_zero, mul_one] at hchord
  calc -slow * (1 - Real.exp (fast * t))
      = -fast * (slow / fast * (1 - Real.exp (fast * t))) := by
        rw [← mul_assoc, neg_mul fast, mul_div_cancel₀ _ (hfast.trans hslow).ne]
    _ ≤ -fast * (1 - Real.exp (slow * t)) :=
        mul_le_mul_of_nonneg_left (by linarith) (neg_pos.mpr (hfast.trans hslow)).le

theorem creepingGap_antitone {slow fast t t' : ℝ} (hslow : slow < 0) (hfast : fast < slow)
    (ht : 0 ≤ t) (htt : t ≤ t') : creepingGap slow fast t' ≤ creepingGap slow fast t := by
  have hle : Real.exp (fast * t) ≤ Real.exp (slow * t) :=
    Real.exp_le_exp.mpr (mul_le_mul_of_nonneg_right hfast.le ht)
  have hshrink : 0 ≤ 1 - Real.exp (fast * (t' - t)) := by
    rw [sub_nonneg, Real.exp_le_one_iff]
    exact mul_nonpos_of_nonpos_of_nonneg (hfast.trans hslow).le (sub_nonneg.mpr htt)
  have hlater (root : ℝ) :
      Real.exp (root * t') = Real.exp (root * t) * Real.exp (root * (t' - t)) := by
    rw [← Real.exp_add]
    ring_nf
  have hparts : -slow * (1 - Real.exp (fast * (t' - t))) * Real.exp (fast * t) ≤
      -fast * (1 - Real.exp (slow * (t' - t))) * Real.exp (slow * t) :=
    mul_le_mul (mul_one_sub_exp_le hslow hfast) hle (Real.exp_pos _).le
      ((mul_nonneg (neg_pos.mpr hslow).le hshrink).trans (mul_one_sub_exp_le hslow hfast))
  rw [creepingGap, creepingGap, div_le_div_right_of_neg (sub_neg.mpr hfast), hlater, hlater]
  linarith

/-! ## Oscillators -/

namespace Oscillator

/-- The oscillator has a positive frequency, and its damping is not negative. -/
structure IsPhysical (o : Oscillator ℝ) : Prop where
  frequency_pos : 0 < o.frequency
  ratio_nonneg : 0 ≤ o.ratio

/-- The larger root of the equation of a creeping spring. -/
noncomputable def slow (o : Oscillator ℝ) : ℝ :=
  -o.frequency * (o.ratio - √(o.ratio * o.ratio - 1))

/-- The smaller root of the equation of a creeping spring. -/
noncomputable def fast (o : Oscillator ℝ) : ℝ :=
  -o.frequency * (o.ratio + √(o.ratio * o.ratio - 1))

/-- What the position lacks of one, by the damping regime. -/
noncomputable def gap (o : Oscillator ℝ) (t : ℝ) : ℝ :=
  if o.ratio < 1 then swingingGap o.frequency o.ratio t
  else if o.ratio = 1 then criticalGap o.frequency t
  else creepingGap o.slow o.fast t

/-- What the gap keeps within ever after. -/
noncomputable def bound (o : Oscillator ℝ) (t : ℝ) : ℝ :=
  if o.ratio < 1 then
    Real.exp (-o.ratio * o.frequency * t) / √(1 - o.ratio * o.ratio)
  else |o.gap t|

section Regimes

variable {o : Oscillator ℝ}

theorem gap_of_lt_one (hswing : o.ratio < 1) (t : ℝ) :
    o.gap t = swingingGap o.frequency o.ratio t := if_pos hswing

theorem gap_of_eq_one (hcritical : o.ratio = 1) (t : ℝ) :
    o.gap t = criticalGap o.frequency t := by
  rw [gap, if_neg hcritical.not_lt, if_pos hcritical]

theorem gap_of_one_lt (hcreep : 1 < o.ratio) (t : ℝ) :
    o.gap t = creepingGap o.slow o.fast t := by
  rw [gap, if_neg hcreep.not_gt, if_neg hcreep.ne']

theorem critical_eq (t : ℝ) : o.critical t = .ok (1 - criticalGap o.frequency t) := by
  rw [critical, one_real]
  rfl

end Regimes

namespace IsPhysical

variable {o : Oscillator ℝ} (h : o.IsPhysical)

include h

/-- Both roots of a creeping spring are negative and apart. -/
theorem roots (hcreep : 1 < o.ratio) : o.slow < 0 ∧ o.fast < o.slow := by
  have hroot : 0 < √(o.ratio * o.ratio - 1) := Real.sqrt_pos.mpr (by nlinarith)
  have hless : √(o.ratio * o.ratio - 1) < o.ratio :=
    (Real.sqrt_lt' (by linarith)).mpr (by nlinarith)
  have hf := h.frequency_pos
  constructor
  · exact mul_neg_of_neg_of_pos (neg_neg_of_pos hf) (by linarith)
  · exact mul_lt_mul_of_neg_left (by linarith) (neg_neg_of_pos hf)

theorem swinging_eq (hswing : o.ratio < 1) (t : ℝ) :
    o.swinging t = .ok (1 - swingingGap o.frequency o.ratio t) := by
  have hrest : 0 < 1 - o.ratio * o.ratio := by nlinarith [h.ratio_nonneg]
  have hdamped : o.frequency * √(1 - o.ratio * o.ratio) ≠ 0 :=
    (mul_pos h.frequency_pos (Real.sqrt_pos.mpr hrest)).ne'
  rw [swinging, one_real, sqrt_real hrest.le, ok_bind]
  simp only [quotient_real hdamped]
  rfl

theorem creeping_eq (hcreep : 1 < o.ratio) (t : ℝ) :
    o.creeping t = .ok (1 - creepingGap o.slow o.fast t) := by
  have hapart : o.fast - o.slow ≠ 0 := (sub_neg.mpr (h.roots hcreep).2).ne
  rw [creeping, one_real, sqrt_real (by nlinarith), ok_bind]
  exact congrArg (fun share => share >>= fun x => Except.ok (1 - x)) (quotient_real hapart _)

/-- Every regime has a position at every time. -/
theorem position_eq (t : ℝ) : o.position t = .ok (1 - o.gap t) := by
  rw [position, one_real]
  rcases lt_trichotomy o.ratio 1 with hratio | hratio | hratio
  · rw [if_pos hratio, h.swinging_eq hratio, gap_of_lt_one hratio]
  · rw [if_neg hratio.not_lt, if_pos (beq_iff_eq.mpr hratio), critical_eq, gap_of_eq_one hratio]
  · rw [if_neg hratio.not_gt, if_neg (by simpa using hratio.ne'), h.creeping_eq hratio,
      gap_of_one_lt hratio]

theorem gap_zero : o.gap 0 = 1 := by
  rcases lt_trichotomy o.ratio 1 with hratio | hratio | hratio
  · rw [gap_of_lt_one hratio]
    simp [swingingGap]
  · rw [gap_of_eq_one hratio]
    simp [criticalGap]
  · have hapart : o.fast - o.slow ≠ 0 := (sub_neg.mpr (h.roots hratio).2).ne
    rw [gap_of_one_lt hratio]
    simp [creepingGap, hapart]

/-- The rest before the release joins the formula. -/
theorem response_eq {t : ℝ} (ht : 0 ≤ t) : o.response t = .ok (1 - o.gap t) := by
  rw [response, Analytic.zero_real]
  split
  · next hrest =>
    rw [le_antisymm hrest ht, h.gap_zero, sub_self]
  · exact h.position_eq t

theorem error_eq {t : ℝ} (ht : 0 ≤ t) : o.error t = .ok |o.gap t| := by
  rw [error, h.response_eq ht, one_real]
  change Except.ok |1 - (1 - o.gap t)| = _
  rw [sub_sub_cancel]

theorem errorBound_eq {t : ℝ} (ht : 0 ≤ t) : o.errorBound t = .ok (o.bound t) := by
  rw [errorBound, bound, one_real]
  by_cases hratio : o.ratio < 1
  · have hrest : 0 < 1 - o.ratio * o.ratio := by nlinarith [h.ratio_nonneg]
    rw [if_pos hratio, if_pos hratio, sqrt_real hrest.le]
    exact quotient_real (Real.sqrt_pos.mpr hrest).ne' _
  · rw [if_neg hratio, if_neg hratio, h.error_eq ht]

theorem gap_pos (hratio : 1 ≤ o.ratio) {t : ℝ} (ht : 0 ≤ t) : 0 < o.gap t := by
  rcases hratio.eq_or_lt' with hratio | hratio
  · rw [gap_of_eq_one hratio]
    exact criticalGap_pos h.frequency_pos ht
  · rw [gap_of_one_lt hratio]
    obtain ⟨hslow, hfast⟩ := h.roots hratio
    exact creepingGap_pos hslow hfast ht

theorem gap_antitone (hratio : 1 ≤ o.ratio) {t t' : ℝ} (ht : 0 ≤ t) (htt : t ≤ t') :
    o.gap t' ≤ o.gap t := by
  rcases hratio.eq_or_lt' with hratio | hratio
  · rw [gap_of_eq_one hratio, gap_of_eq_one hratio]
    exact criticalGap_antitone h.frequency_pos ht htt
  · rw [gap_of_one_lt hratio, gap_of_one_lt hratio]
    obtain ⟨hslow, hfast⟩ := h.roots hratio
    exact creepingGap_antitone hslow hfast ht htt

theorem abs_gap_le_bound {t t' : ℝ} (ht : 0 ≤ t) (htt : t ≤ t') : |o.gap t'| ≤ o.bound t := by
  rw [bound]
  split
  · next hratio =>
    have hrate : 0 ≤ o.ratio * o.frequency := mul_nonneg h.ratio_nonneg h.frequency_pos.le
    rw [gap_of_lt_one hratio]
    refine (abs_swingingGap_le h.frequency_pos h.ratio_nonneg hratio t').trans ?_
    gcongr ?_ / _
    exact Real.exp_le_exp.mpr (by nlinarith)
  · next hratio =>
    have hratio := not_lt.mp hratio
    rw [abs_of_pos (h.gap_pos hratio (ht.trans htt)), abs_of_pos (h.gap_pos hratio ht)]
    exact h.gap_antitone hratio ht htt

end IsPhysical

end Oscillator

/-! ## Configurations -/

namespace Config

/-- The numbers of the configuration are of their ranges. -/
structure IsPhysical (config : Config ℝ) : Prop where
  mass_pos : 0 < config.mass
  stiffness_pos : 0 < config.stiffness
  damping_nonneg : 0 ≤ config.damping

/-- Exactly the numbers of their ranges make a configuration. -/
theorem build_eq_ok_iff {mass damping stiffness : ℝ} {clamping : Document} {config : Config ℝ} :
    build mass damping stiffness clamping = .ok config ↔
      config = ⟨mass, damping, stiffness, clamping⟩ ∧ config.IsPhysical := by
  have hzero : (ofInt 0 : ℝ) = 0 := Int.cast_zero
  rw [build_eq_ok_iff_checks, hzero]
  simp only [le_real, lt_real, Except.ok.injEq, decide_eq_false_iff_not, not_le, not_lt]
  refine and_congr_right ?_
  rintro rfl
  exact ⟨fun ⟨hm, hk, hd⟩ => ⟨hm, hk, hd⟩, fun ⟨hm, hk, hd⟩ => ⟨hm, hk, hd⟩⟩

namespace IsPhysical

variable {config : Config ℝ} (h : config.IsPhysical)

include h

theorem oscillator_eq : config.oscillator =
    .ok { frequency := √(config.stiffness / config.mass),
          ratio := config.damping / (2 * √(config.stiffness * config.mass)) } := by
  have hquotient := div_pos h.stiffness_pos h.mass_pos
  have hproduct := mul_pos h.stiffness_pos h.mass_pos
  have hcritical : 2 * √(config.stiffness * config.mass) ≠ 0 :=
    (mul_pos two_pos (Real.sqrt_pos.mpr hproduct)).ne'
  have hfrequency : config.naturalFrequency = .ok √(config.stiffness / config.mass) := by
    rw [naturalFrequency, div_real h.mass_pos.ne']
    exact sqrt_real hquotient.le
  have hratio : config.dampingRatio =
      .ok (config.damping / (2 * √(config.stiffness * config.mass))) := by
    rw [dampingRatio, two_real]
    change (do quotient config.damping (2 * (← sqrt (config.stiffness * config.mass)))) = _
    rw [sqrt_real hproduct.le, ok_bind, quotient_real hcritical]
  rw [oscillator, hfrequency, hratio]
  rfl

theorem exists_oscillator : ∃ o : Oscillator ℝ, config.oscillator = .ok o ∧ o.IsPhysical :=
  ⟨_, h.oscillator_eq, Real.sqrt_pos.mpr (div_pos h.stiffness_pos h.mass_pos),
    div_nonneg h.damping_nonneg (mul_nonneg zero_le_two (Real.sqrt_nonneg _))⟩

end IsPhysical

end Config

theorem stepResponse_eq {config : Config ℝ} {o : Oscillator ℝ} (h : config.oscillator = .ok o)
    (hphysical : o.IsPhysical) {t : ℝ} (ht : 0 ≤ t) :
    stepResponse t config = .ok (1 - o.gap t) := by
  have hzero : (ofInt 0 : ℝ) = 0 := Int.cast_zero
  rw [stepResponse, le_real, ok_bind, hzero, Arith.zero_real]
  by_cases hrest : t ≤ 0
  · rw [if_pos (decide_eq_true hrest), le_antisymm hrest ht, hphysical.gap_zero, sub_self]
    rfl
  · rw [if_neg (by simpa using hrest), h, measure_real, ok_bind, ok_bind, hphysical.position_eq]
    rfl

/-- No formula of a spring divides by zero. Its error bound at a time keeps what it lacks of one
then and ever after, and a spring that does not swing comes closer to one all the time, without
getting there. -/
theorem stepResponse_within_errorBound {config : Config ℝ} (h : config.IsPhysical) :
    ∃ o, config.oscillator = .ok o ∧ (∀ t, ∃ x, o.position t = .ok x) ∧
      ∀ t t', 0 ≤ t → t ≤ t' → ∃ x x' bound, stepResponse t config = .ok x ∧
        stepResponse t' config = .ok x' ∧ o.errorBound t = .ok bound ∧ |1 - x'| ≤ bound ∧
        (1 ≤ o.ratio → 0 ≤ x ∧ x ≤ x' ∧ x' < 1) := by
  obtain ⟨o, ho, hphysical⟩ := h.exists_oscillator
  refine ⟨o, ho, fun t => ⟨_, hphysical.position_eq t⟩, fun t t' ht htt => ?_⟩
  refine ⟨_, _, _, stepResponse_eq ho hphysical ht, stepResponse_eq ho hphysical (ht.trans htt),
    hphysical.errorBound_eq ht, ?_, fun hratio => ⟨?_, ?_, ?_⟩⟩
  · rw [sub_sub_cancel]
    exact hphysical.abs_gap_le_bound ht htt
  · have := hphysical.gap_antitone hratio le_rfl ht
    rw [hphysical.gap_zero] at this
    linarith
  · have := hphysical.gap_antitone hratio ht htt
    linarith
  · have := hphysical.gap_pos hratio (ht.trans htt)
    linarith

/-- Where the damping is three times what mass and stiffness are, the spring creeps. -/
theorem stepResponse_within_errorBound_creeping :
    (⟨1, 3, 1, .flag false⟩ : Config ℝ).IsPhysical ∧
      ∃ x x' : ℝ, stepResponse 1 ⟨1, 3, 1, .flag false⟩ = .ok x ∧
        stepResponse 2 ⟨1, 3, 1, .flag false⟩ = .ok x' ∧ 0 ≤ x ∧ x ≤ x' ∧ x' < 1 := by
  have h : (⟨1, 3, 1, .flag false⟩ : Config ℝ).IsPhysical := ⟨one_pos, one_pos, zero_le_three⟩
  obtain ⟨o, ho, -, hall⟩ := stepResponse_within_errorBound h
  rw [h.oscillator_eq] at ho
  cases ho
  obtain ⟨x, x', -, hx, hx', -, -, hcreeps⟩ := hall 1 2 zero_le_one one_le_two
  exact ⟨h, x, x', hx, hx', hcreeps (by norm_num)⟩

end Showreel.Spring
