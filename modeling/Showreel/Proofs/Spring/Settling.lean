import Mathlib.Analysis.Complex.ExponentialBounds
import Mathlib.Order.Bounds.Basic
import Showreel.Proofs.Spring.Response
import Showreel.Spring.Motion

/-!
# The frames until a spring settles

The walk over the frames of a spring remembers the last frame outside the band around one and ends
where the bound of all later distances is inside. What it returns is told by the frames that it came
by: the one before the result is outside, those from the result on are inside. If the bounds cover
what they are to bound, no later frame is outside either, and the result is the least of its kind.
With exact numbers they do, and there is always a result. With numbers as documents hold them a
distance or a bound may be too large to be computed, and the walk fails at the first frame where one
is.
-/

namespace Showreel.Spring

open Arith Measured

variable {α μ : Type} [Analytic μ] [Measured α μ]

/-! ## What the walk sees at a frame -/

/-- The distance from one at a frame. -/
def errorAt (fps : α) (config : Config α) (n : Nat) : Except Fault α := do
  let x ← stepResponse (← div (ofInt n) fps) config
  return ofMeasure (Analytic.magnitude (1.0 - (← measure x)))

/-- What is to bound the distances from a frame on. -/
def boundAt (fps : α) (config : Config α) (n : Nat) : Except Fault α := do
  let t ← measure (← div (ofInt n) fps)
  return ofMeasure (← (← config.oscillator).errorBound t)

section Walk

variable (fps : α) (config : Config α) (threshold : α)

/-- The bound at the frame still leaves room outside. -/
def GoesOn (n : Nat) : Prop :=
  ∃ e b, errorAt fps config n = .ok e ∧ boundAt fps config n = .ok b ∧
    lt b threshold = .ok false

/-- The bound at the frame leaves no room outside. -/
def EndsAt (n : Nat) : Prop :=
  ∃ e b, errorAt fps config n = .ok e ∧ boundAt fps config n = .ok b ∧ lt b threshold = .ok true

/-- The distance at the frame or else its bound cannot be computed. -/
def FailsAt (n : Nat) (fault : Fault) : Prop :=
  errorAt fps config n = .error fault ∨
    ∃ e, errorAt fps config n = .ok e ∧ boundAt fps config n = .error fault

def IsOutside (n : Nat) : Prop :=
  ∃ e, errorAt fps config n = .ok e ∧ le threshold e = .ok true

/-- The distance at the frame is not outside; it is less than the threshold if it compares at all. -/
def IsInside (n : Nat) : Prop :=
  ∃ e, errorAt fps config n = .ok e ∧ le threshold e = .ok false ∧
    (le e e = .ok true → lt e threshold = .ok true)

/-- The last of the first frames, `frame` of them, that is outside, or zero. -/
structure IsLastOutside (frame last : Nat) : Prop where
  le : last ≤ frame - 1
  outside : 0 < last → IsOutside fps config threshold last
  inside : ∀ n, last < n → n < frame → IsInside fps config threshold n

/-- Every distance that can be computed from a frame on is less than the threshold. -/
def StaysInside (r : Nat) : Prop :=
  ∀ n, r ≤ n → ∀ e, errorAt fps config n = .ok e → lt e threshold = .ok true

/-- A bound is at least every later distance. -/
def Covers : Prop :=
  ∀ n m, n ≤ m → ∀ b e, boundAt fps config n = .ok b → errorAt fps config m = .ok e →
    le e b = .ok true

end Walk

section Step

variable {fps threshold : α} {config : Config α}

theorem exists_of_errorAt {n : Nat} {e : α} (h : errorAt fps config n = .ok e) :
    ∃ m : μ, e = ofMeasure m := by
  obtain ⟨t, -, h⟩ := bind_eq_ok_iff.mp h
  obtain ⟨x, -, h⟩ := bind_eq_ok_iff.mp h
  obtain ⟨m, -, h⟩ := bind_eq_ok_iff.mp h
  exact ⟨_, (Except.ok.inj h).symm⟩

theorem exists_of_boundAt {n : Nat} {b : α} (h : boundAt fps config n = .ok b) :
    ∃ m : μ, b = ofMeasure m := by
  obtain ⟨t, -, h⟩ := bind_eq_ok_iff.mp h
  obtain ⟨x, -, h⟩ := bind_eq_ok_iff.mp h
  obtain ⟨o, -, h⟩ := bind_eq_ok_iff.mp h
  obtain ⟨m, -, h⟩ := bind_eq_ok_iff.mp h
  exact ⟨_, (Except.ok.inj h).symm⟩

theorem isLastOutside_succ (h : IsPositive threshold) {frame last : Nat} {e : μ} {outside : Bool}
    (hlast : IsLastOutside fps config threshold frame last)
    (he : errorAt fps config frame = .ok (ofMeasure e))
    (houtside : le threshold (ofMeasure e) = .ok outside) :
    IsLastOutside fps config threshold (frame + 1) (if outside then frame else last) := by
  cases outside with
  | true =>
    rw [if_pos rfl]
    exact ⟨le_rfl, fun _ => ⟨_, he, houtside⟩, fun n hlow hhigh => by omega⟩
  | false =>
    refine ⟨hlast.le.trans (by omega), hlast.outside, fun n hlow hhigh => ?_⟩
    rcases Nat.lt_succ_iff_lt_or_eq.mp hhigh with hbefore | rfl
    · exact hlast.inside n hlow hbefore
    · exact ⟨_, he, houtside, fun hcompares => h.lt_of_not_le hcompares houtside⟩

variable [Faithful α]

theorem errorAt_eq {n : Nat} {t : μ} {o : Oscillator μ}
    (hdiv : div (ofInt n) fps = .ok (ofMeasure t)) (ho : config.oscillator = .ok o) :
    errorAt fps config n = (do return ofMeasure (← o.error t)) := by
  rw [errorAt, hdiv, ok_bind, stepResponse, Faithful.le_zero, ok_bind, ho, ok_bind,
    Faithful.measure_ofMeasure, ok_bind, Oscillator.error, Oscillator.response]
  by_cases hrest : t ≤ 0.0
  · rw [if_pos (decide_eq_true hrest), if_pos hrest, pure_eq_ok, ok_bind, Faithful.zero_eq,
      Faithful.measure_ofMeasure]
    rfl
  · rw [if_neg (by simpa using hrest), if_neg hrest]
    cases o.position t with
    | error fault => rfl
    | ok x =>
      rw [ok_bind, pure_eq_ok, ok_bind, Faithful.measure_ofMeasure]
      rfl

theorem boundAt_eq {n : Nat} {t : μ} (hdiv : div (ofInt n) fps = .ok (ofMeasure t)) :
    boundAt fps config n = (do return ofMeasure (← (← config.oscillator).errorBound t)) := by
  rw [boundAt, hdiv, ok_bind, Faithful.measure_ofMeasure, ok_bind]

/-- Where there is no oscillator, there is no distance either but the one before the release. -/
theorem errorAt_of_error {n : Nat} {t : μ} {fault : Fault}
    (hdiv : div (ofInt n) fps = .ok (ofMeasure t)) (ho : config.oscillator = .error fault) :
    errorAt fps config n = .error fault ∨ ∃ e : μ, errorAt fps config n = .ok (ofMeasure e) := by
  rw [errorAt, hdiv, ok_bind, stepResponse, Faithful.le_zero, ok_bind, ho]
  by_cases hrest : t ≤ 0.0
  · rw [if_pos (decide_eq_true hrest), pure_eq_ok, ok_bind, Faithful.zero_eq,
      Faithful.measure_ofMeasure]
    exact .inr ⟨_, rfl⟩
  · rw [if_neg (by simpa using hrest)]
    exact .inl rfl

/-- At a frame the walk tells the distance from the threshold, and then its bound. -/
theorem lastOutside_succ (h : IsPositive threshold) (fuel frame last : Nat) :
    lastOutside fps threshold config.oscillator (fuel + 1) frame last = (do
      let outside ← le threshold (← errorAt fps config frame)
      let last := if outside then frame else last
      if ← lt (← boundAt fps config frame) threshold then return last
      else lastOutside fps threshold config.oscillator fuel (frame + 1) last) := by
  rw [lastOutside]
  cases hdiv : div (ofInt frame : α) fps with
  | error fault =>
    rw [errorAt, hdiv]
    rfl
  | ok t =>
    obtain ⟨t, rfl⟩ := Faithful.exists_of_div hdiv
    rw [ok_bind, Faithful.measure_ofMeasure, ok_bind, boundAt_eq hdiv]
    cases ho : (config.oscillator : Except Fault (Oscillator μ)) with
    | error fault =>
      -- before the release there is a distance nonetheless, so the bound is what fails
      rcases errorAt_of_error hdiv ho with he | ⟨e, he⟩
      · rw [he]
        rfl
      · obtain ⟨outside, houtside⟩ := h.exists_le e
        rw [he, ok_bind, houtside]
        rfl
    | ok o =>
      rw [errorAt_eq hdiv ho, ok_bind, ok_bind]
      cases o.error t with
      | error fault => rfl
      | ok e =>
        rw [ok_bind]
        cases o.errorBound t <;> rfl

/-- What the walk does at a frame, as the frame is. -/
theorem lastOutside_step (h : IsPositive threshold) (fuel : Nat) {frame last : Nat}
    (hlast : IsLastOutside fps config threshold frame last) :
    (∃ fault, FailsAt fps config frame fault ∧
      lastOutside fps threshold config.oscillator (fuel + 1) frame last = .error fault) ∨
    ∃ last', IsLastOutside fps config threshold (frame + 1) last' ∧
      (EndsAt fps config threshold frame ∧
        lastOutside fps threshold config.oscillator (fuel + 1) frame last = .ok last' ∨
      GoesOn fps config threshold frame ∧
        lastOutside fps threshold config.oscillator (fuel + 1) frame last =
          lastOutside fps threshold config.oscillator fuel (frame + 1) last') := by
  rw [lastOutside_succ h]
  cases he : errorAt fps config frame with
  | error fault => exact .inl ⟨fault, .inl he, rfl⟩
  | ok e =>
    obtain ⟨m, rfl⟩ := exists_of_errorAt he
    obtain ⟨outside, houtside⟩ := h.exists_le m
    rw [ok_bind, houtside, ok_bind]
    cases hb : boundAt fps config frame with
    | error fault => exact .inl ⟨fault, .inr ⟨_, he, hb⟩, rfl⟩
    | ok b =>
      obtain ⟨m', rfl⟩ := exists_of_boundAt hb
      obtain ⟨ends, hends⟩ := h.exists_lt m'
      rw [ok_bind, hends, ok_bind]
      refine .inr ⟨if outside then frame else last, isLastOutside_succ h hlast he houtside, ?_⟩
      cases ends with
      | true => exact .inl ⟨⟨_, _, he, hb, hends⟩, rfl⟩
      | false => exact .inr ⟨⟨_, _, he, hb, hends⟩, rfl⟩

/-- The walk fails at the first frame that does, or ends at the first frame that ends it, at the
latest when its fuel is used up. -/
theorem lastOutside_cases (h : IsPositive threshold) (fuel : Nat) {frame last : Nat}
    (hpast : ∀ n < frame, GoesOn fps config threshold n) (hsome : 0 < frame + fuel)
    (hlast : IsLastOutside fps config threshold frame last) :
    (∃ fault n, n < frame + fuel ∧ (∀ m < n, GoesOn fps config threshold m) ∧
      FailsAt fps config n fault ∧
      lastOutside fps threshold config.oscillator fuel frame last = .error fault) ∨
    ∃ last' stop, stop < frame + fuel ∧ (∀ n < stop, GoesOn fps config threshold n) ∧
      (EndsAt fps config threshold stop ∨
        GoesOn fps config threshold stop ∧ stop + 1 = frame + fuel) ∧
      IsLastOutside fps config threshold (stop + 1) last' ∧
      lastOutside fps threshold config.oscillator fuel frame last = .ok last' := by
  -- every frame behind `frame` has gone on, and `last` is the last of them outside
  induction fuel generalizing frame last with
  | zero =>
    obtain ⟨stop, rfl⟩ := Nat.exists_eq_succ_of_ne_zero hsome.ne'
    exact .inr ⟨last, stop, Nat.lt_succ_self _, fun n hn => hpast n (by omega),
      .inr ⟨hpast stop (Nat.lt_succ_self _), rfl⟩, hlast, rfl⟩
  | succ fuel ih =>
    rcases lastOutside_step h fuel hlast with ⟨fault, hfails, hrun⟩ | ⟨last', hlast', hstep⟩
    · exact .inl ⟨fault, frame, by omega, hpast, hfails, hrun⟩
    rcases hstep with ⟨hends, hrun⟩ | ⟨hgoes, hrun⟩
    · exact .inr ⟨last', frame, by omega, hpast, .inl hends, hlast', hrun⟩
    have hpast' : ∀ n < frame + 1, GoesOn fps config threshold n := by
      intro n hn
      rcases Nat.lt_succ_iff_lt_or_eq.mp hn with hbefore | rfl
      · exact hpast n hbefore
      · exact hgoes
    have hfuel : frame + (fuel + 1) = frame + 1 + fuel := by omega
    rw [hrun, hfuel]
    exact ih hpast' (by omega) hlast'

end Step

/-! ## Measurements -/

/-- A result `r` of a walk that ends at the frame `stop`. -/
structure Measurement (fps : α) (config : Config α) (threshold : α) (stop r : Nat) : Prop where
  stop_lt : stop < settleLimit
  goesOn : ∀ n < stop, GoesOn fps config threshold n
  stops : EndsAt fps config threshold stop ∨
    GoesOn fps config threshold stop ∧ stop + 1 = settleLimit
  pos : 1 ≤ r
  le_stop : r ≤ stop + 1
  outside : 1 < r → IsOutside fps config threshold (r - 1)
  inside : ∀ n, r ≤ n → n ≤ stop → IsInside fps config threshold n

section Measurements

variable {fps threshold : α} {config : Config α}

/-- Measuring fails at the first frame that does, or it has a result. -/
theorem settleFrames_cases [Faithful α] (hfps : IsPositive fps) (h : IsPositive threshold)
    (hclamping : config.overshootClamping.isKey = true) :
    (∃ fault n, n < settleLimit ∧ (∀ m < n, GoesOn fps config threshold m) ∧
      FailsAt fps config n fault ∧ settleFrames fps config threshold = .error fault) ∨
    ∃ stop r, Measurement fps config threshold stop r ∧
      settleFrames fps config threshold = .ok r := by
  have hrun : settleFrames fps config threshold = (do
      return (← lastOutside fps threshold config.oscillator settleLimit 0 0) + 1) := by
    rw [settleFrames, hfps.isKey, hclamping, h.isKey, h.not_le_zero]
    rfl
  have hnone : IsLastOutside fps config threshold 0 0 :=
    ⟨le_rfl, fun hpos => absurd hpos (lt_irrefl 0), fun n _ hn => absurd hn (Nat.not_lt_zero n)⟩
  rw [hrun]
  rcases lastOutside_cases h settleLimit (fun n hn => absurd hn (Nat.not_lt_zero n))
    (by decide) hnone with ⟨fault, n, hn, hgoes, hfails, hwalk⟩ |
      ⟨last, stop, hstop, hgoes, hstops, hlast, hwalk⟩
  · refine .inl ⟨fault, n, by rwa [zero_add] at hn, hgoes, hfails, ?_⟩
    rw [hwalk]
    rfl
  · rw [zero_add] at hstop hstops
    refine .inr ⟨stop, last + 1, ⟨hstop, hgoes, hstops, Nat.succ_pos _, ?_, ?_, ?_⟩, ?_⟩
    · exact Nat.succ_le_succ hlast.le
    · exact fun hpos => hlast.outside (by omega)
    · exact fun n hlow hhigh => hlast.inside n hlow (Nat.lt_succ_of_le hhigh)
    · rw [hwalk]
      rfl

/-- Where a bound ends the walk and covers what comes, the spring stays inside from the result on,
and from no frame before. -/
theorem Measurement.isLeast (h : IsPositive threshold) {stop r : Nat}
    (hr : Measurement fps config threshold stop r) (hends : EndsAt fps config threshold stop)
    (hcovers : Covers fps config) :
    IsLeast {r | 1 ≤ r ∧ StaysInside fps config threshold r} r := by
  refine ⟨⟨hr.pos, fun n hn e he => ?_⟩, fun r' ⟨hpos, hstays⟩ => ?_⟩
  · obtain ⟨m, rfl⟩ := exists_of_errorAt he
    rcases le_or_gt n stop with hle | hlt
    · obtain ⟨b, hb⟩ : ∃ b, boundAt fps config n = .ok b := by
        rcases hle.lt_or_eq with hbefore | rfl
        · obtain ⟨-, b, -, hb, -⟩ := hr.goesOn n hbefore
          exact ⟨b, hb⟩
        · obtain ⟨-, b, -, hb, -⟩ := hends
          exact ⟨b, hb⟩
      obtain ⟨m', rfl⟩ := exists_of_boundAt hb
      obtain ⟨e, he', hnot, -⟩ := hr.inside n hn hle
      obtain rfl : ofMeasure m = e := Except.ok.inj (he.symm.trans he')
      exact h.lt_of_not_le (hcovers n n le_rfl _ _ hb he) hnot
    · obtain ⟨-, b, -, hb, hbelow⟩ := hends
      obtain ⟨m', rfl⟩ := exists_of_boundAt hb
      exact h.lt_of_le_of_lt (hcovers stop n hlt.le _ _ hb he) hbelow
  · by_contra hlt
    obtain ⟨e, he, hout⟩ := hr.outside (by omega)
    obtain ⟨m, rfl⟩ := exists_of_errorAt he
    have hin := h.not_le_of_lt (hstays (r - 1) (by omega) _ he)
    rw [hout] at hin
    cases hin

/-- A bound below the threshold ends the walk, at its frame at the latest. -/
theorem Measurement.ends {stop r n : Nat} {b : α} (hr : Measurement fps config threshold stop r)
    (hb : boundAt fps config n = .ok b) (hbelow : lt b threshold = .ok true)
    (hn : n + 1 < settleLimit) : EndsAt fps config threshold stop ∧ stop ≤ n := by
  have hstop : stop ≤ n := by
    by_contra hlater
    obtain ⟨_, b', -, hb', hroom⟩ := hr.goesOn n (not_le.mp hlater)
    obtain rfl : b = b' := Except.ok.inj (hb.symm.trans hb')
    cases hbelow.symm.trans hroom
  exact ⟨hr.stops.resolve_right fun hlimit => by omega, hstop⟩

end Measurements

/-! ## Exact measurements -/

section Exact

variable {fps : ℝ} {config : Config ℝ}

/-- With exact numbers the distances and bounds are those of the gap. -/
theorem exists_gap (h : config.IsPhysical) (hfps : 0 < fps) :
    ∃ o : Oscillator ℝ, config.oscillator = .ok o ∧ o.IsPhysical ∧ ∀ n : Nat,
      stepResponse (n / fps) config = .ok (1 - o.gap (n / fps)) ∧
      errorAt fps config n = .ok |o.gap (n / fps)| ∧
      boundAt fps config n = .ok (o.bound (n / fps)) := by
  obtain ⟨o, ho, hphysical⟩ := h.exists_oscillator
  refine ⟨o, ho, hphysical, fun n => ?_⟩
  have ht : (0 : ℝ) ≤ n / fps := div_nonneg n.cast_nonneg hfps.le
  have hdiv : div (ofInt n) fps = .ok (ofMeasure (n / fps : ℝ)) := by
    rw [div_real hfps.ne', ofInt_real, Int.cast_natCast]
    rfl
  refine ⟨stepResponse_eq ho hphysical ht, ?_, ?_⟩
  · rw [errorAt_eq hdiv ho, hphysical.error_eq ht]
    rfl
  · rw [boundAt_eq hdiv, ho, ok_bind, hphysical.errorBound_eq ht]
    rfl

theorem covers_of_isPhysical (h : config.IsPhysical) (hfps : 0 < fps) : Covers fps config := by
  obtain ⟨o, -, hphysical, hall⟩ := exists_gap h hfps
  intro n m hnm b e hb he
  rw [(hall n).2.2] at hb
  rw [(hall m).2.1] at he
  cases hb
  cases he
  have hn : (0 : ℝ) ≤ n / fps := div_nonneg n.cast_nonneg hfps.le
  have hlater : (n : ℝ) / fps ≤ m / fps := by gcongr
  rw [le_real, decide_eq_true (hphysical.abs_gap_le_bound hn hlater)]

theorem lt_of_isInside {threshold err : ℝ} {n : Nat} (h : IsInside fps config threshold n)
    (herr : errorAt fps config n = .ok err) : err < threshold := by
  obtain ⟨e, he, hnot, -⟩ := h
  obtain rfl : err = e := Except.ok.inj (herr.symm.trans he)
  simpa using hnot

theorem staysInside_iff {threshold : ℝ} {err : Nat → ℝ}
    (herr : ∀ n, errorAt fps config n = .ok (err n)) (r : Nat) :
    StaysInside fps config threshold r ↔ ∀ n, r ≤ n → err n < threshold := by
  constructor
  · intro hstays n hn
    simpa using hstays n hn _ (herr n)
  · intro hbelow n hn e he
    obtain rfl : err n = e := Except.ok.inj ((herr n).symm.trans he)
    simpa using hbelow n hn

theorem not_failsAt (h : config.IsPhysical) (hfps : 0 < fps) (n : Nat) (fault : Fault) :
    ¬ FailsAt fps config n fault := by
  obtain ⟨o, -, -, hall⟩ := exists_gap h hfps
  rintro (he | ⟨e, -, hb⟩)
  · rw [(hall n).2.1] at he
    cases he
  · rw [(hall n).2.2] at hb
    cases hb

end Exact

/-- Measuring a spring fails at the first frame at which a distance or a bound cannot be computed, or
it returns the frame behind the last one outside among those that it came by. Where a bound ended it
and the bounds cover, the spring stays inside from there on, and from no frame before. With exact
numbers nothing fails and the bounds do cover. -/
theorem settleFrames_measures :
    (∀ (fps threshold : Document) (config : Config Document),
      lt (ofInt 0) fps = .ok true → lt (ofInt 0) threshold = .ok true →
      config.overshootClamping.isKey = true →
        (∃ fault n, n < settleLimit ∧ (∀ m < n, GoesOn fps config threshold m) ∧
          FailsAt fps config n fault ∧ settleFrames fps config threshold = .error fault) ∨
        ∃ stop r, settleFrames fps config threshold = .ok r ∧
          Measurement fps config threshold stop r ∧
          (EndsAt fps config threshold stop → Covers fps config →
            IsLeast {r | 1 ≤ r ∧ StaysInside fps config threshold r} r)) ∧
    ∀ (fps threshold : ℝ) (config : Config ℝ), 0 < fps → 0 < threshold → config.IsPhysical →
      config.overshootClamping.isKey = true → ∃ err : Nat → ℝ,
        (∀ n, errorAt fps config n = .ok (err n) ∧
          ∃ x, stepResponse (n / fps) config = .ok x ∧ err n = |1 - x|) ∧
        ∃ stop r, settleFrames fps config threshold = .ok r ∧
          Measurement fps config threshold stop r ∧
          (∀ n, r ≤ n → n ≤ stop → err n < threshold) ∧
          (EndsAt fps config threshold stop →
            IsLeast {r | 1 ≤ r ∧ ∀ n, r ≤ n → err n < threshold} r) := by
  constructor
  · intro fps threshold config hfps hthreshold hclamping
    have hpos := Faithful.isPositive hthreshold
    rcases settleFrames_cases (Faithful.isPositive hfps) hpos hclamping with hfault |
      ⟨stop, r, hr, hrun⟩
    · exact .inl hfault
    · exact .inr ⟨stop, r, hrun, hr, hr.isLeast hpos⟩
  · intro fps threshold config hfps hthreshold h hclamping
    have hreal {a : ℝ} (ha : 0 < a) : IsPositive a := Faithful.isPositive (by simpa using ha)
    obtain ⟨o, -, -, hall⟩ := exists_gap h hfps
    have herr (n : Nat) : errorAt fps config n = .ok |o.gap (n / fps)| := (hall n).2.1
    refine ⟨fun n => |o.gap (n / fps)|, fun n => ⟨herr n, _, (hall n).1, ?_⟩, ?_⟩
    · rw [sub_sub_cancel]
    rcases settleFrames_cases (hreal hfps) (hreal hthreshold) hclamping with
      ⟨fault, n, -, -, hfails, -⟩ | ⟨stop, r, hr, hrun⟩
    · exact absurd hfails (not_failsAt h hfps n fault)
    · refine ⟨stop, r, hrun, hr, fun n hn hstop => ?_, fun hends => ?_⟩
      · exact lt_of_isInside (hr.inside n hn hstop) (herr n)
      · have hleast := hr.isLeast (hreal hthreshold) hends (covers_of_isPhysical h hfps)
        simpa only [staysInside_iff herr] using hleast

/-- The critically damped spring of unit mass and stiffness. -/
noncomputable def unitSpring : Config ℝ := { mass := 1, damping := 2, stiffness := 1 }

theorem unitSpring_isPhysical : unitSpring.IsPhysical := ⟨one_pos, one_pos, zero_le_two⟩

/-- After one second that spring has not come half of the way; from two seconds on it has. -/
theorem unitSpring_errors : ∃ e : Nat → ℝ,
    (∀ n, errorAt 1 unitSpring n = .ok (e n) ∧ boundAt 1 unitSpring n = .ok (e n)) ∧
      1 / 2 ≤ e 1 ∧ ∀ n, 2 ≤ n → e n < 1 / 2 := by
  obtain ⟨o, ho, hphysical, hall⟩ := exists_gap unitSpring_isPhysical one_pos
  rw [unitSpring_isPhysical.oscillator_eq] at ho
  have hfrequency : o.frequency = 1 := by
    cases ho
    simp [unitSpring]
  have hratio : o.ratio = 1 := by
    cases ho
    simp [unitSpring]
  have hgap (t : ℝ) : o.gap t = Real.exp (-t) * (1 + t) := by
    rw [Oscillator.gap_of_eq_one hratio, criticalGap, hfrequency, neg_one_mul, one_mul]
  refine ⟨fun n => o.gap n, fun n => ?_, ?_, fun n hn => ?_⟩
  · have habs := abs_of_pos (hphysical.gap_pos hratio.ge n.cast_nonneg)
    obtain ⟨-, he, hb⟩ := hall n
    rw [div_one] at he hb
    rw [he, hb, Oscillator.bound, if_neg hratio.not_lt, habs]
    exact ⟨rfl, rfl⟩
  · change 1 / 2 ≤ o.gap (1 : ℕ)
    rw [Nat.cast_one, hgap, Real.exp_neg, inv_mul_eq_div, le_div_iff₀ (Real.exp_pos 1)]
    linarith [Real.exp_one_lt_d9]
  · have htwo : o.gap 2 < 1 / 2 := by
      rw [hgap, Real.exp_neg, inv_mul_eq_div, div_lt_iff₀ (Real.exp_pos _),
        show (2 : ℝ) = (2 : ℕ) from rfl, ← Real.exp_one_pow]
      nlinarith [Real.exp_one_gt_d9]
    exact (hphysical.gap_antitone hratio.ge zero_le_two (Nat.ofNat_le_cast.mpr hn)).trans_lt htwo

/-- A threshold beyond the start is kept at once. At one frame a second, the spring of unit mass and
stiffness keeps to the second half of the way from its second frame on. -/
theorem settleFrames_measures_settling :
    settleFrames (.int 30) (smooth : Config Document) (.double 2.0) = .ok 1 ∧
      (∃ stop, Measurement (.int 30) (smooth : Config Document) (.double 2.0) stop 1) ∧
      settleFrames 1 unitSpring (1 / 2) = .ok 2 ∧
      ∃ err : Nat → ℝ, (∀ n, errorAt 1 unitSpring n = .ok (err n)) ∧
        IsLeast {r | 1 ≤ r ∧ ∀ n, r ≤ n → err n < 1 / 2} 2 := by
  obtain ⟨hdocuments, hexact⟩ := settleFrames_measures
  have hsmooth : settleFrames (.int 30) (smooth : Config Document) (.double 2.0) = .ok 1 := by
    decide +kernel
  refine ⟨hsmooth, ?_, ?_⟩
  · rcases hdocuments (.int 30) (.double 2.0) smooth (by decide +kernel) (by decide +kernel) rfl with
      ⟨fault, n, -, -, -, hrun⟩ | ⟨stop, r, hrun, hr, -⟩
    · cases hsmooth.symm.trans hrun
    · cases hsmooth.symm.trans hrun
      exact ⟨stop, hr⟩
  obtain ⟨err, herr, stop, r, hrun, hr, -, hsettled⟩ := hexact 1 (1 / 2) unitSpring one_pos
    one_half_pos unitSpring_isPhysical rfl
  obtain ⟨e, hall, hone, htwo⟩ := unitSpring_errors
  obtain rfl : err = e := funext fun n => Except.ok.inj ((herr n).1.symm.trans (hall n).1)
  have hends : EndsAt 1 unitSpring (1 / 2) stop := by
    refine hr.stops.resolve_right fun ⟨_, hstop⟩ => ?_
    obtain ⟨_, b, -, hb, hroom⟩ := hr.goesOn 2 (by unfold settleLimit at hstop; omega)
    rw [(hall 2).2] at hb
    cases hb
    rw [lt_real, decide_eq_true (htwo 2 le_rfl)] at hroom
    cases hroom
  have hleast := hsettled hends
  obtain rfl : r = 2 := by
    apply le_antisymm
    · exact hleast.2 ⟨one_le_two, htwo⟩
    · by_contra hlt
      exact hone.not_gt (hleast.1.2 1 (by omega))
  exact ⟨hrun, err, fun n => (hall n).1, hleast⟩

/-- A spring of so much stiffness and damping is accepted, and cannot be measured. -/
theorem overwhelming_not_measured : ∃ config : Config Document,
    Config.build (.int 1) (.int (2 * 10 ^ 200)) (.int (10 ^ 200 * 10 ^ 200))
        (.flag false) = .ok config ∧
      lt (ofInt 0) (Document.int 30) = .ok true ∧
      lt (ofInt 0) (defaultSettleThreshold : Document) = .ok true ∧
      settleFrames (.int 30) config defaultSettleThreshold = .error .overflow :=
  ⟨_, rfl, by decide +kernel, by decide +kernel, by decide +kernel⟩

end Showreel.Spring
