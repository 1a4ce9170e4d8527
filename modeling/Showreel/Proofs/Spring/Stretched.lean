import Showreel.Proofs.Spring.Settling
import Showreel.Proofs.Spring.Swing

/-!
# Springs that are stretched to a length

A stretched spring shows, at whole frames, what the spring does between its own frames. Its frames
until it settles were measured at whole frames only. So from its length on it is within the
threshold wherever a whole frame of the spring is shown, and always if it does not swing. If it
swings, the first peak after the measured frames decides, which may lie between two frames.
-/

namespace Showreel.Spring

open Arith Measured

theorem defaultSettleThreshold_real : (defaultSettleThreshold : ℝ) = 1 / 200 := by
  change @OfScientific.ofScientific ℝ _ 5 true 3 = 1 / 200
  norm_num

/-- The base is more than its first two digits. -/
theorem exp_neg_lt {x limit : ℝ} (n : Nat) (hx : n ≤ x) (hlimit : 1 < limit * 2.7 ^ n) :
    Real.exp (-x) < limit := by
  have hbase : (2.7 : ℝ) ^ n ≤ Real.exp x := by
    calc (2.7 : ℝ) ^ n ≤ Real.exp 1 ^ n := by
          gcongr
          linarith [Real.exp_one_gt_d9]
      _ = Real.exp n := Real.exp_one_pow n
      _ ≤ Real.exp x := Real.exp_le_exp.mpr hx
  have hpos : 0 < limit := by
    by_contra hnot
    have := mul_nonpos_of_nonpos_of_nonneg (not_lt.mp hnot) (by positivity : (0 : ℝ) ≤ 2.7 ^ n)
    linarith
  rw [Real.exp_neg, inv_lt_iff_one_lt_mul₀ (Real.exp_pos x)]
  exact hlimit.trans_le (by nlinarith)

theorem least_one_real (x : ℝ) : least x 1.0 = .ok (min x 1) := by
  have hone : @OfScientific.ofScientific ℝ Arith.toOfScientific 10 true 1 = 1 := by
    change @OfScientific.ofScientific ℝ _ 10 true 1 = 1
    norm_num
  rw [hone, least, lt_real, ok_bind]
  by_cases hover : 1 < x
  · rw [if_pos (decide_eq_true hover), min_eq_right hover.le]
    rfl
  · rw [if_neg (by simpa using hover), min_eq_left (not_lt.mp hover)]
    rfl

theorem exists_clampedResponse {config : Config ℝ} {o : Oscillator ℝ}
    (ho : config.oscillator = .ok o) (h : o.IsPhysical) {t : ℝ} (ht : 0 ≤ t) :
    ∃ x, clampedResponse config t = .ok x ∧
      |x - 1| = o.distance config.overshootClamping.isTrue t := by
  unfold clampedResponse
  rw [stepResponse_eq ho h ht, ok_bind, least_one_real]
  cases config.overshootClamping.isTrue with
  | true =>
    refine ⟨_, rfl, ?_⟩
    rw [Oscillator.distance, if_pos rfl, abs_of_nonpos (sub_nonpos.mpr (min_le_right _ _)), neg_sub]
    rcases le_total (o.gap t) 0 with hover | hshort
    · rw [min_eq_right (by linarith), max_eq_right hover, sub_self]
    · rw [min_eq_left (by linarith), max_eq_left hshort, sub_sub_cancel]
  | false =>
    refine ⟨_, rfl, ?_⟩
    rw [Oscillator.distance, if_neg Bool.false_ne_true, sub_sub_cancel_left, abs_neg]

/-- A stretched spring is where the spring is at the time that stands for the frame. -/
theorem progress_stretched {fps delay length frame : ℝ} {config : Config ℝ} {r : Nat}
    (hfps : 0 < fps) (hrun : settleFrames fps config defaultSettleThreshold = .ok r)
    (hlength : 0 < length) (hframe : delay ≤ frame) :
    (motion fps config).progress delay (some length) frame =
      clampedResponse config ((frame - delay) * (r / length) / fps) := by
  have hzero : (ofInt 0 : ℝ) = 0 := Int.cast_zero
  have hsub : sub frame delay = .ok (frame - delay) := rfl
  have hshare : div (ofInt r : ℝ) length = .ok (r / length) := by
    rw [div_real hlength.ne', ofInt_real, Int.cast_natCast]
  have hmul : mul (frame - delay) (r / length : ℝ) = .ok ((frame - delay) * (r / length)) := rfl
  have hnatural : (Thunk.mk fun _ => settleFrames fps config defaultSettleThreshold).get = .ok r :=
    hrun
  show progressAt fps (Thunk.mk fun _ => settleFrames fps config defaultSettleThreshold)
    (clampedResponse config) delay (some length) frame = _
  unfold progressAt stretched
  rw [hzero, le_real, ok_bind, if_neg (by simpa using hfps), lt_real, ok_bind,
    if_neg (by simpa using hframe), hsub, ok_bind]
  dsimp only
  rw [le_real, ok_bind, if_neg (by simpa using hlength), hnatural, ok_bind, hshare, ok_bind, hmul,
    ok_bind, div_real hfps.ne', ok_bind]

/-- However long the motion is made, from its length on it is within the threshold of one. -/
def StaysSettled (fps : ℝ) (config : Config ℝ) : Prop :=
  ∀ (length frame : ℤ) (delay : ℝ), 1 ≤ length → delay + length ≤ frame →
    ∃ x, (motion fps config).progress delay (some (length : ℝ)) frame = .ok x ∧
      |x - 1| < defaultSettleThreshold

/-- With exact numbers the frames of a spring are measured, and where its bound ended that, the
spring is within the threshold at all later frames. -/
theorem exists_measurement {fps : ℝ} {config : Config ℝ} (hfps : 0 < fps) (h : config.IsPhysical)
    (hclamping : config.overshootClamping.isKey = true) : ∃ stop r,
      settleFrames fps config defaultSettleThreshold = .ok r ∧
      Measurement fps config defaultSettleThreshold stop r ∧
      (EndsAt fps config defaultSettleThreshold stop →
        IsLeast {r | 1 ≤ r ∧ StaysInside fps config defaultSettleThreshold r} r) := by
  have hreal {a : ℝ} (ha : 0 < a) : IsPositive a := Faithful.isPositive (by simpa using ha)
  have hthreshold : (0 : ℝ) < defaultSettleThreshold := by
    rw [defaultSettleThreshold_real]
    norm_num
  rcases settleFrames_cases (hreal hfps) (hreal hthreshold) hclamping with
    ⟨fault, n, -, -, hfails, -⟩ | ⟨stop, r, hr, hrun⟩
  · exact absurd hfails (not_failsAt h hfps n fault)
  · exact ⟨stop, r, hrun, hr,
      fun hends => hr.isLeast (hreal hthreshold) hends (covers_of_isPhysical h hfps)⟩

section Settled

variable {fps : ℝ} {config : Config ℝ} {o : Oscillator ℝ} {r : Nat} (hfps : 0 < fps)
  (ho : config.oscillator = .ok o) (h : o.IsPhysical)
  (hrun : settleFrames fps config defaultSettleThreshold = .ok r)

include hfps ho h hrun

/-- From its length on a stretched motion shows what the spring does after its own frames. -/
theorem exists_progress {length frame : ℤ} {delay : ℝ} (hlength : 1 ≤ length)
    (hframe : delay + length ≤ frame) : ∃ t x, t = (frame - delay) * (r / length) / fps ∧
      r / fps ≤ t ∧ (motion fps config).progress delay (some (length : ℝ)) frame = .ok x ∧
      |x - 1| = o.distance config.overshootClamping.isTrue t := by
  have hpos : (0 : ℝ) < length := by exact_mod_cast hlength
  have hlate : (r : ℝ) / fps ≤ (frame - delay) * (r / length) / fps := by
    have hshare : (0 : ℝ) ≤ r / length := div_nonneg r.cast_nonneg hpos.le
    calc (r : ℝ) / fps = length * (r / length) / fps := by rw [mul_div_cancel₀ _ hpos.ne']
      _ ≤ (frame - delay) * (r / length) / fps := by
        gcongr
        linarith
  obtain ⟨x, hx, hdistance⟩ := exists_clampedResponse ho h
    ((div_nonneg r.cast_nonneg hfps.le).trans hlate)
  refine ⟨_, x, rfl, hlate, ?_, hdistance⟩
  rw [progress_stretched hfps hrun hpos (by linarith), hx]

/-- Delays reach every time after the frames of the spring. -/
theorem staysSettled_iff (hr : 1 ≤ r) : StaysSettled fps config ↔
    ∀ t, r / fps ≤ t → o.distance config.overshootClamping.isTrue t < defaultSettleThreshold := by
  have hpos : (0 : ℝ) < r := Nat.cast_pos.mpr hr
  constructor
  · intro hsettled t ht
    rw [div_le_iff₀ hfps] at ht
    have hframe : -(t * fps / r) + ((1 : ℤ) : ℝ) ≤ ((0 : ℤ) : ℝ) := by
      have : 1 ≤ t * fps / r := (one_le_div hpos).mpr ht
      push_cast
      linarith
    obtain ⟨x, hx, hnear⟩ := hsettled 1 0 _ le_rfl hframe
    obtain ⟨t', x', ht', -, hx', hdistance⟩ := exists_progress hfps ho h hrun le_rfl hframe
    obtain rfl : x = x' := Except.ok.inj (hx.symm.trans hx')
    obtain rfl : t' = t := by
      rw [ht']
      field_simp
      push_cast
      ring
    rwa [← hdistance]
  · intro hall length frame delay hlength hframe
    obtain ⟨t, x, -, hlate, hx, hdistance⟩ := exists_progress hfps ho h hrun hlength hframe
    exact ⟨x, hx, hdistance ▸ hall t hlate⟩

end Settled

/-- A spring that was measured by its bound and stretched to a length is within the threshold of one
from that length on wherever a whole frame of the spring is shown or one behind the last that was
looked at. It is within it always if the spring does not swing; if it swings, exactly if the
first peak behind the measured frames is, on the lower side if the spring is clamped. -/
theorem stretched_stays_settled_iff {fps : ℝ} {config : Config ℝ} (hfps : 0 < fps)
    (h : config.IsPhysical) (hclamping : config.overshootClamping.isKey = true) :
    ∃ o stop r, config.oscillator = .ok o ∧
      settleFrames fps config defaultSettleThreshold = .ok r ∧
      Measurement fps config defaultSettleThreshold stop r ∧
      (EndsAt fps config defaultSettleThreshold stop →
        (∀ (length frame : ℤ) (delay : ℝ), 1 ≤ length → delay + length ≤ frame →
          ∃ x, (motion fps config).progress delay (some (length : ℝ)) frame = .ok x ∧
            ((∃ n : ℕ, (frame - delay) * r = n * length) ∨
              stop * length ≤ (frame - delay) * r → |x - 1| < defaultSettleThreshold)) ∧
        (1 ≤ o.ratio → StaysSettled fps config) ∧
        (o.ratio < 1 → ∃ k, IsLeast {k | r / fps ≤ o.turn k ∧
            (config.overshootClamping.isTrue = true → Even k)} k ∧
          (StaysSettled fps config ↔ o.peak k < defaultSettleThreshold))) := by
  obtain ⟨o, ho, hphysical, hall⟩ := exists_gap h hfps
  obtain ⟨stop, r, hrun, hr, hleast⟩ := exists_measurement hfps h hclamping
  refine ⟨o, stop, r, ho, hrun, hr, fun hends => ?_⟩
  have hstays := (hleast hends).1.2
  rw [staysInside_iff fun n => (hall n).2.1] at hstays
  have hstart : (0 : ℝ) ≤ r / fps := div_nonneg r.cast_nonneg hfps.le
  have hnow : o.distance config.overshootClamping.isTrue (r / fps) < defaultSettleThreshold :=
    (o.distance_le_abs_gap _ _).trans_lt (hstays r le_rfl)
  have hiff := staysSettled_iff hfps ho hphysical hrun hr.pos
  refine ⟨?_, ?_, ?_⟩
  · intro length frame delay hlength hframe
    obtain ⟨t, x, ht, hlate, hx, hdistance⟩ :=
      exists_progress hfps ho hphysical hrun hlength hframe
    refine ⟨x, hx, fun hwhere => ?_⟩
    rw [hdistance]
    apply (o.distance_le_abs_gap _ _).trans_lt
    have hpos : (0 : ℝ) < length := by exact_mod_cast hlength
    have hplace (x : ℝ) : x * length / (length * fps) = x / fps := by
      rw [mul_comm x, mul_div_mul_left _ _ hpos.ne']
    rw [mul_div_assoc', div_div] at ht
    rcases hwhere with ⟨n, hn⟩ | hpast
    · have hwhole : t = n / fps := by rw [ht, hn, hplace]
      rw [hwhole] at hlate ⊢
      exact hstays n (by exact_mod_cast (div_le_div_iff_of_pos_right hfps).mp hlate)
    · obtain ⟨-, b, -, hb, hbelow⟩ := hends
      obtain rfl : o.bound (stop / fps) = b := Except.ok.inj ((hall stop).2.2.symm.trans hb)
      have hstop : (stop : ℝ) / fps ≤ t := by
        rw [ht, ← hplace]
        gcongr
      exact (hphysical.abs_gap_le_bound (div_nonneg stop.cast_nonneg hfps.le) hstop).trans_lt
        (by simpa using hbelow)
  · intro hratio
    rw [hiff]
    intro t ht
    calc o.distance config.overshootClamping.isTrue t ≤ |o.gap t| := o.distance_le_abs_gap _ _
      _ = o.gap t := abs_of_pos (hphysical.gap_pos hratio (hstart.trans ht))
      _ ≤ o.gap (r / fps) := hphysical.gap_antitone hratio hstart ht
      _ ≤ |o.gap (r / fps)| := le_abs_self _
      _ < defaultSettleThreshold := hstays r le_rfl
  · intro hswing
    obtain ⟨k, hk⟩ := hphysical.exists_isLeast_turn hswing (r / fps)
      config.overshootClamping.isTrue
    exact ⟨k, hk, hiff.trans (hphysical.forall_distance_lt_iff hswing hstart hnow hk)⟩

/-- A spring that swings slowly under its damping stays settled. -/
theorem stretched_stays_settled_iff_swinging : ∃ o,
    (⟨1, 6, 10, .flag false⟩ : Config ℝ).oscillator = .ok o ∧ o.ratio < 1 ∧
      StaysSettled 1 ⟨1, 6, 10, .flag false⟩ := by
  have hspring : (⟨1, 6, 10, .flag false⟩ : Config ℝ) = swingingSpring 3 1 := by
    unfold swingingSpring
    norm_num
  rw [hspring]
  have h := swingingSpring_isPhysical zero_le_three one_pos
  obtain ⟨o, stop, r, ho, -, hr, hsettles⟩ := stretched_stays_settled_iff one_pos h rfl
  obtain ⟨o', ho', -, hall⟩ := exists_gap h one_pos
  obtain rfl : o = o' := Except.ok.inj (ho.symm.trans ho')
  have hswings := swingingSpring_swings zero_le_three one_pos ho
  have hbound : o.bound ((3 : ℕ) / 1) < defaultSettleThreshold := by
    have hdecay : Real.exp (-9) < 1 / 800 := exp_neg_lt 9 (by norm_num) (by norm_num)
    have hroot : √((3 : ℝ) ^ 2 + 1 ^ 2) < 4 := (Real.sqrt_lt' four_pos).mpr (by norm_num)
    rw [hswings.bound_eq one_pos, defaultSettleThreshold_real]
    calc Real.exp (-3 * ((3 : ℕ) / 1)) * (√((3 : ℝ) ^ 2 + 1 ^ 2) / 1)
        = Real.exp (-9) * √((3 : ℝ) ^ 2 + 1 ^ 2) := by norm_num
      _ < 1 / 800 * 4 :=
        mul_lt_mul'' hdecay hroot (Real.exp_pos _).le (Real.sqrt_nonneg _)
      _ = 1 / 200 := by norm_num
  obtain ⟨hends, -⟩ := hr.ends (hall 3).2.2 (by simpa using hbound) (by decide)
  obtain ⟨-, -, hfirst⟩ := hsettles hends
  obtain ⟨k, ⟨⟨hlate, -⟩, -⟩, hiff⟩ := hfirst hswings.ratio_lt
  refine ⟨o, ho, hswings.ratio_lt, hiff.mpr ?_⟩
  have hk : 1 ≤ k := by
    by_contra hzero
    obtain rfl : k = 0 := by omega
    rw [o.turn_zero, div_one] at hlate
    have : (1 : ℝ) ≤ r := Nat.one_le_cast.mpr hr.pos
    linarith
  have hangle : 3 ≤ k * Real.pi := by
    have : (1 : ℝ) ≤ k := Nat.one_le_cast.mpr hk
    nlinarith [Real.pi_gt_three]
  rw [hswings.peak_eq, defaultSettleThreshold_real, div_one, neg_mul]
  exact exp_neg_lt 9 (by push_cast; linarith) (by norm_num)

/-- A swing whose angle is short of half a turn by less than two thirds is close to one. -/
theorem abs_swing_early_le : |Real.cos (5 / 2) + 96 / 75 * Real.sin (5 / 2)| ≤ 9 / 100 := by
  obtain ⟨x, hx⟩ : ∃ x, Real.pi - x = 5 / 2 := ⟨Real.pi - 5 / 2, by ring⟩
  have hlow : 0.641 ≤ x := by linarith [Real.pi_gt_d4]
  have hhigh : x ≤ 0.642 := by linarith [Real.pi_lt_d4]
  have hunit : |x| ≤ 1 := abs_le.mpr ⟨by linarith, by linarith⟩
  obtain ⟨hcos, hcos'⟩ := abs_le.mp (Real.cos_bound hunit)
  obtain ⟨hsin, hsin'⟩ := abs_le.mp (Real.sin_bound hunit)
  rw [abs_of_nonneg (by linarith : (0 : ℝ) ≤ x)] at hcos hcos' hsin hsin'
  have hsq : 0.641 ^ 2 ≤ x ^ 2 := by gcongr
  have hsq' : x ^ 2 ≤ 0.642 ^ 2 := by gcongr
  have hcube : 0.641 ^ 3 ≤ x ^ 3 := by gcongr
  have hcube' : x ^ 3 ≤ 0.642 ^ 3 := by gcongr
  have hfourth : x ^ 4 ≤ 0.642 ^ 4 := by gcongr
  have hfifth : x ^ 5 ≤ 0.642 ^ 5 := by gcongr
  norm_num at hsq hsq' hcube hcube' hfourth hfifth
  rw [← hx, Real.cos_pi_sub, Real.sin_pi_sub, abs_le]
  constructor <;> linarith

/-- A swing whose angle is beyond half a turn by less than two thirds is far beyond one. -/
theorem swing_late_le : Real.cos (15 / 4) + 96 / 75 * Real.sin (15 / 4) ≤ -(4 / 5) := by
  obtain ⟨x, hx⟩ : ∃ x, x + Real.pi = 15 / 4 := ⟨15 / 4 - Real.pi, by ring⟩
  have hlow : 0 ≤ x := by linarith [Real.pi_lt_d4]
  have hhigh : x ≤ 0.61 := by linarith [Real.pi_gt_d4]
  have hcos : 1 - x ^ 2 / 2 ≤ Real.cos x := Real.one_sub_sq_div_two_le_cos
  have hsin : 0 ≤ Real.sin x :=
    Real.sin_nonneg_of_nonneg_of_le_pi hlow (by linarith [Real.pi_gt_three])
  rw [← hx, Real.cos_add_pi, Real.sin_add_pi]
  nlinarith

namespace Oscillator.Swings

variable {o : Oscillator ℝ} (h : o.Swings 96 75)

include h

theorem bound_second_lt : o.bound ((2 : ℕ) / 30) < defaultSettleThreshold := by
  have hdecay : Real.exp (-(32 / 5)) < 1 / 387 := exp_neg_lt 6 (by norm_num) (by norm_num)
  have hroot : √((96 : ℝ) ^ 2 + 75 ^ 2) < 122 := (Real.sqrt_lt' (by norm_num)).mpr (by norm_num)
  rw [h.bound_eq (by norm_num), defaultSettleThreshold_real]
  calc Real.exp (-96 * ((2 : ℕ) / 30)) * (√((96 : ℝ) ^ 2 + 75 ^ 2) / 75)
      = Real.exp (-(32 / 5)) * √((96 : ℝ) ^ 2 + 75 ^ 2) / 75 := by
        rw [mul_div_assoc']
        norm_num
    _ < 1 / 387 * 122 / 75 := by gcongr
    _ ≤ 1 / 200 := by norm_num

theorem abs_gap_first_lt : |o.gap ((1 : ℕ) / 30)| < defaultSettleThreshold := by
  have hdecay : Real.exp (-(16 / 5)) < 1 / 19 := exp_neg_lt 3 (by norm_num) (by norm_num)
  have htime : (-96 : ℝ) * ((1 : ℕ) / 30) = -(16 / 5) := by norm_num
  have hangle : (75 : ℝ) * ((1 : ℕ) / 30) = 5 / 2 := by norm_num
  rw [h.gap_eq, htime, hangle, abs_mul, abs_of_pos (Real.exp_pos _), defaultSettleThreshold_real]
  calc Real.exp (-(16 / 5)) * |Real.cos (5 / 2) + 96 / 75 * Real.sin (5 / 2)|
      ≤ 1 / 19 * (9 / 100) :=
        mul_le_mul hdecay.le abs_swing_early_le (abs_nonneg _) (by norm_num)
    _ < 1 / 200 := by norm_num

/-- Halfway between its first two frames the spring is beyond the threshold. -/
theorem le_abs_gap_between : defaultSettleThreshold ≤ |o.gap (1 / 20)| := by
  have hbase : Real.exp (5 : ℕ) ≤ 149 := by
    calc Real.exp (5 : ℕ) = Real.exp 1 ^ 5 := (Real.exp_one_pow 5).symm
      _ ≤ 2.7182818286 ^ 5 := by
        gcongr
        exact Real.exp_one_lt_d9.le
      _ ≤ 149 := by norm_num
  have hdecay : 1 / 149 ≤ Real.exp (-(24 / 5)) := by
    have hlonger : Real.exp (24 / 5) ≤ Real.exp (5 : ℕ) := Real.exp_le_exp.mpr (by norm_num)
    rw [Real.exp_neg, ← one_div]
    exact one_div_le_one_div_of_le (Real.exp_pos _) (hlonger.trans hbase)
  have htime : (-96 : ℝ) * (1 / 20) = -(24 / 5) := by norm_num
  have hangle : (75 : ℝ) * (1 / 20) = 15 / 4 := by norm_num
  have hfar : 4 / 5 ≤ |Real.cos (15 / 4) + 96 / 75 * Real.sin (15 / 4)| :=
    le_abs.mpr (.inr (le_neg.mpr swing_late_le))
  rw [h.gap_eq, htime, hangle, abs_mul, abs_of_pos (Real.exp_pos _), defaultSettleThreshold_real]
  calc (1 : ℝ) / 200 ≤ 1 / 149 * (4 / 5) := by norm_num
    _ ≤ Real.exp (-(24 / 5)) * |Real.cos (15 / 4) + 96 / 75 * Real.sin (15 / 4)| :=
      mul_le_mul hdecay hfar (by norm_num) (Real.exp_pos _).le

end Oscillator.Swings

/-- At thirty frames a second this spring passes one so close to its first frame that it is measured
at a single frame. Stretched to two frames it is outside at the third, which shows it halfway
between its first frame and the second. -/
theorem betweenFrames_not_settled : ∃ config : Config ℝ,
    Config.build 1 192 14841 (.flag false) = .ok config ∧
      settleFrames 30 config defaultSettleThreshold = .ok 1 ∧
      (∃ stop, Measurement 30 config defaultSettleThreshold stop 1 ∧
        EndsAt 30 config defaultSettleThreshold stop) ∧
      ∃ x, (motion 30 config).progress 0 (some 2) 3 = .ok x ∧
        defaultSettleThreshold ≤ |x - 1| := by
  have hspring : (⟨1, 192, 14841, .flag false⟩ : Config ℝ) = swingingSpring 96 75 := by
    unfold swingingSpring
    norm_num
  have h : (swingingSpring 96 75).IsPhysical :=
    swingingSpring_isPhysical (by norm_num) (by norm_num)
  have hfps : (0 : ℝ) < 30 := by norm_num
  obtain ⟨o, ho, hphysical, hall⟩ := exists_gap h hfps
  have hswings : o.Swings 96 75 := swingingSpring_swings (by norm_num) (by norm_num) ho
  obtain ⟨stop, r, hrun, hr, hleast⟩ := exists_measurement hfps h rfl
  obtain ⟨hends, -⟩ := hr.ends (hall 2).2.2 (by simpa using hswings.bound_second_lt) (by decide)
  have hstays : StaysInside 30 (swingingSpring 96 75) defaultSettleThreshold 1 := by
    rw [staysInside_iff fun n => (hall n).2.1]
    intro n hn
    rcases hn.eq_or_lt' with rfl | hlater
    · exact hswings.abs_gap_first_lt
    · have hsecond : ((2 : ℕ) : ℝ) / 30 ≤ n / 30 := by
        gcongr
        exact hlater
      exact (hphysical.abs_gap_le_bound (by positivity) hsecond).trans_lt hswings.bound_second_lt
  obtain rfl : r = 1 := le_antisymm ((hleast hends).2 ⟨le_rfl, hstays⟩) hr.pos
  refine ⟨_, Config.build_eq_ok_iff.mpr ⟨hspring.symm, h⟩, hrun, ⟨stop, hr, hends⟩, ?_⟩
  have htime : ((3 : ℝ) - 0) * ((1 : ℕ) / 2) / 30 = 1 / 20 := by norm_num
  obtain ⟨x, hx, hdistance⟩ := exists_clampedResponse ho hphysical
    (by norm_num : (0 : ℝ) ≤ 1 / 20)
  refine ⟨x, by rw [progress_stretched hfps hrun two_pos zero_le_three, htime, hx], ?_⟩
  rw [hdistance]
  exact hswings.le_abs_gap_between

end Showreel.Spring
