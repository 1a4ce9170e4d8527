import Showreel.Proofs.Curve.Runs
import Showreel.Proofs.Scene.Bounds

/-!
# Views that trade places

Two views that trade places share one opacity between them: what the one has lost the other has won.
So whoever has more than half of it is alone in that, and pointer input goes to at most one of them.
The share that has passed never falls, so input is handed over once. A scene that trades two views
twice, with exchanged roles, shares their opacity at every place all the same.
-/

namespace Showreel

open Arith (ofInt)

/-- Two views with opacities that add up to one, at most one of which takes input: one that has at
least half the opacity, and more than a threshold. -/
structure SharesInput (threshold opacity opacity' : ℚ) (takes takes' : Bool) : Prop where
  share : IsShare opacity
  share' : IsShare opacity'
  sum : opacity + opacity' = 1
  atMostOne : ¬ (takes = true ∧ takes' = true)
  opaque_of_takes : takes = true → 1 / 2 ≤ opacity ∧ threshold < opacity
  opaque_of_takes' : takes' = true → 1 / 2 ≤ opacity' ∧ threshold < opacity'
  exactlyOne : threshold < 1 / 2 → (takes = true ↔ ¬ takes' = true)

theorem SharesInput.symm {threshold opacity opacity' : ℚ} {takes takes' : Bool}
    (h : SharesInput threshold opacity opacity' takes takes') :
    SharesInput threshold opacity' opacity takes' takes where
  share := h.share'
  share' := h.share
  sum := by rw [add_comm, h.sum]
  atMostOne both := h.atMostOne both.symm
  opaque_of_takes := h.opaque_of_takes'
  opaque_of_takes' := h.opaque_of_takes
  exactlyOne hlow := by rw [h.exactlyOne hlow, not_not]

namespace CrossFade

variable {start stop threshold x y : ℚ}

/-- The share of a window that has passed at a place. -/
def passed (start stop x : ℚ) : ℚ :=
  if stop ≤ x then 1 else if x < start then 0 else (x - start) / (stop - start)

theorem passed_mem (start stop x : ℚ) : IsShare (passed start stop x) := by
  unfold passed
  split
  case isTrue => exact isShare_one
  case isFalse hstop =>
    split
    case isTrue => exact isShare_zero
    case isFalse hstart =>
      have hshare := Curve.Neighbours.share_mem (not_lt.mp hstart) (not_le.mp hstop)
      exact ⟨hshare.1, hshare.2.le⟩

theorem passed_mono (hxy : x ≤ y) : passed start stop x ≤ passed start stop y := by
  have hx := passed_mem start stop x
  have hy := passed_mem start stop y
  unfold passed at hx hy ⊢
  by_cases hstop : stop ≤ y
  · rw [if_pos hstop]
    exact hx.2
  · have hstop' : ¬ stop ≤ x := fun h => hstop (h.trans hxy)
    by_cases hstart : x < start
    · rw [if_neg hstop', if_pos hstart]
      exact hy.1
    · have hgap : 0 ≤ stop - start := by linarith
      rw [if_neg hstop', if_neg hstart, if_neg hstop, if_neg (fun h => hstart (hxy.trans_lt h))]
      exact div_le_div_of_nonneg_right (by linarith) hgap

/-- A ramp over a window goes from one value to the other by the share that has passed. -/
theorem ramp_window (h : start ≤ stop) (v₀ v₁ x : ℚ) :
    ramp x [start, stop] [v₀, v₁] = .ok (v₀ + (v₁ - v₀) * passed start stop x) := by
  have hordered : Curve.IsOrdered { breakpoints := [start, stop], values := [v₀, v₁] } :=
    ⟨rfl, le_rfl, by simpa using h⟩
  have hn : Curve.Neighbours { breakpoints := [start, stop], values := [v₀, v₁] } 0 start stop
      v₀ v₁ := ⟨rfl, rfl, rfl, rfl⟩
  unfold ramp
  rw [interpolate_rat hordered]
  unfold passed
  by_cases hstop : stop ≤ x
  · rw [if_pos hstop, hordered.valueAt_beyond hn rfl hstop, Curve.onward, mul_one, add_sub_cancel]
  · rw [if_neg hstop]
    by_cases hstart : x < start
    · rw [if_pos hstart, hordered.valueAt_ahead hn rfl hstart, Curve.onward, mul_zero, add_zero]
    · rw [if_neg hstart, hordered.valueAt_between hn (not_lt.mp hstart) (not_le.mp hstop)]
      rfl

/-- The two views at a place, told by the share of the window that has passed. -/
theorem swapAt_eq (h : start ≤ stop) : swapAt x start stop threshold = .ok {
    outgoingOpacity := 1 - passed start stop x
    incomingOpacity := passed start stop x
    outgoingInteractive := decide (passed start stop x ≤ 1 - passed start stop x ∧
      threshold < 1 - passed start stop x)
    incomingInteractive := decide (1 - passed start stop x < passed start stop x ∧
      threshold < passed start stop x) } := by
  have hout : ramp x [start, stop] [ofInt 1, ofInt 0] = .ok (1 - passed start stop x) := by
    rw [ramp_window h, Arith.ofInt_rat, Arith.ofInt_rat]
    push_cast
    ring_nf
  have hin : ramp x [start, stop] [ofInt 0, ofInt 1] = .ok (passed start stop x) := by
    rw [ramp_window h, Arith.ofInt_rat, Arith.ofInt_rat]
    push_cast
    ring_nf
  unfold swapAt
  rw [hout, ok_bind, hin, ok_bind, Arith.le_rat, ok_bind, Arith.lt_rat, Arith.lt_rat]
  by_cases hout : passed start stop x ≤ 1 - passed start stop x
  · have hin : ¬ 1 - passed start stop x < passed start stop x := not_lt.mpr hout
    simp [hout, hin]
  · have hin : 1 - passed start stop x < passed start stop x := not_le.mp hout
    simp [hout, hin]

/-- Views that share an opacity share the input: more than half of it is had by one of them only,
and at a tie the first one keeps it. -/
theorem sharesInput_of_isShare {s : ℚ} (hs : IsShare s) (threshold : ℚ) :
    SharesInput threshold (1 - s) s (decide (s ≤ 1 - s ∧ threshold < 1 - s))
      (decide (1 - s < s ∧ threshold < s)) where
  share := ⟨sub_nonneg.mpr hs.2, sub_le_self 1 hs.1⟩
  share' := hs
  sum := sub_add_cancel 1 s
  atMostOne := by
    simp only [decide_eq_true_eq]
    rintro ⟨⟨hle, -⟩, hlt, -⟩
    exact absurd hlt (not_lt.mpr hle)
  opaque_of_takes := by
    simp only [decide_eq_true_eq]
    rintro ⟨hle, habove⟩
    exact ⟨by linarith, habove⟩
  opaque_of_takes' := by
    simp only [decide_eq_true_eq]
    rintro ⟨hlt, habove⟩
    exact ⟨by linarith, habove⟩
  exactlyOne hlow := by
    simp only [decide_eq_true_eq]
    constructor
    · rintro ⟨hle, -⟩ ⟨hlt, -⟩
      exact absurd hlt (not_lt.mpr hle)
    · intro hnot
      have hle : s ≤ 1 - s := by
        by_contra hlt
        exact hnot ⟨not_le.mp hlt, by linarith⟩
      exact ⟨hle, by linarith⟩

theorem exists_swapAt_sharesInput (h : start ≤ stop) (threshold x : ℚ) :
    ∃ c, swapAt x start stop threshold = .ok c ∧ SharesInput threshold c.outgoingOpacity
      c.incomingOpacity c.outgoingInteractive c.incomingInteractive :=
  ⟨_, swapAt_eq h, sharesInput_of_isShare (passed_mem start stop x) threshold⟩

/-- Input that has gone to the incoming view stays there, and what the outgoing view has it had
before. -/
theorem handover (h : start ≤ stop) (hxy : x ≤ y) {c d : CrossFade ℚ}
    (hc : swapAt x start stop threshold = .ok c) (hd : swapAt y start stop threshold = .ok d) :
    (c.incomingInteractive = true → d.incomingInteractive = true) ∧
      (d.outgoingInteractive = true → c.outgoingInteractive = true) := by
  have hmono : passed start stop x ≤ passed start stop y := passed_mono hxy
  rw [swapAt_eq h] at hc hd
  cases hc
  cases hd
  simp only [decide_eq_true_eq]
  constructor
  · rintro ⟨hlt, habove⟩
    exact ⟨by linarith, by linarith⟩
  · rintro ⟨hle, habove⟩
    exact ⟨by linarith, by linarith⟩

/-- A window that ends in front of its start is refused. -/
theorem swapAt_eq_reject (h : stop < start) :
    swapAt x start stop threshold =
      reject (.decreasingBreakpoints [toString start, toString stop]) := by
  have hramp : ∀ values : List ℚ, values.length = 2 → ramp x [start, stop] values =
      reject (.decreasingBreakpoints [toString start, toString stop]) := by
    intro values hvalues
    unfold ramp interpolate Curve.build
    rw [if_neg (by simp [hvalues]), if_neg (by simp), Curve.decreases_rat, ok_bind,
      decide_eq_true (by simpa using h), if_pos rfl]
    rfl
  unfold swapAt
  rw [hramp _ rfl, reject_bind]

end CrossFade

namespace DnsVerification

/-- The page and the panel share their opacity and the input, before the fade back and from then on,
when they have exchanged their roles. -/
theorem exists_views_sharesInput (threshold x : ℚ) : ∃ v, views x threshold = .ok v ∧
    SharesInput threshold v.deaddropOpacity v.dnsOpacity v.deaddropInteractive
      v.dnsInteractive := by
  have hleave : (ofInt leaves : ℚ) ≤ ofInt left := Int.cast_le.mpr (by decide)
  have hreturn : (ofInt returns : ℚ) ≤ ofInt returned := Int.cast_le.mpr (by decide)
  obtain ⟨there, hthere, hshares⟩ := CrossFade.exists_swapAt_sharesInput hleave threshold x
  obtain ⟨back, hback, hshares'⟩ := CrossFade.exists_swapAt_sharesInput hreturn threshold x
  unfold views Phase.before
  rw [hthere, ok_bind, hback, ok_bind, Arith.lt_rat, ok_bind]
  split
  · exact ⟨_, rfl, hshares⟩
  · exact ⟨_, rfl, hshares'.symm⟩

end DnsVerification

/-- A cross-fade over a window that does not end in front of its start yields two opacities that are
shares of one whole, whatever the place and the threshold; at most one view takes input, with at
least half the opacity and more than the threshold, and one of them surely does if the threshold is
below one half; input is handed over once. Any other window is refused. The scene that fades twice
shares opacity and input between its two views at every place at which it shows something, which it
does wherever its springs answer. -/
theorem CrossFade.input_goes_to_one_view :
    (∀ start stop threshold : ℚ, start ≤ stop →
      (∀ x, ∃ c, swapAt x start stop threshold = .ok c ∧ SharesInput threshold c.outgoingOpacity
        c.incomingOpacity c.outgoingInteractive c.incomingInteractive) ∧
      ∀ x y c d, x ≤ y → swapAt x start stop threshold = .ok c →
        swapAt y start stop threshold = .ok d →
          (c.incomingInteractive = true → d.incomingInteractive = true) ∧
            (d.outgoingInteractive = true → c.outgoingInteractive = true)) ∧
    (∀ x start stop threshold : ℚ, stop < start →
      ∃ cause, swapAt x start stop threshold = .error (.rejected cause)) ∧
    ∀ [Spring.Animated ℚ] (fps threshold x : ℚ),
      (∀ s, DnsVerification.state (Stage.ofRate fps) threshold x = .ok s →
        SharesInput threshold s.deaddropOpacity s.dnsOpacity s.deaddropInteractive
          s.dnsInteractive) ∧
      ((∀ config (start : Int),
          ∃ p, (Spring.Animated.motion fps config).progress (ofInt start) none x = .ok p) →
        ∃ s, DnsVerification.state (Stage.ofRate fps) threshold x = .ok s) := by
  refine ⟨fun start stop threshold h => ⟨exists_swapAt_sharesInput h threshold, ?_⟩, ?_, ?_⟩
  · intro x y c d hxy hc hd
    exact handover h hxy hc hd
  · intro x start stop threshold h
    exact ⟨_, swapAt_eq_reject h⟩
  · intro _ fps threshold x
    refine ⟨fun s hs => ?_, fun hsprings => ?_⟩
    · obtain ⟨v, hv, hshares⟩ := DnsVerification.exists_views_sharesInput threshold x
      obtain ⟨hviews, -⟩ := DnsVerification.parts_of_state hs
      obtain rfl := Except.ok.inj (hv.symm.trans hviews)
      exact hshares
    · exact (DnsVerification.state_ensures fun _ => hsprings).total trivial

/-- Halfway through a window the views are tied, and the outgoing one keeps the input; in the scene
that fades twice the panel does so on the way back. -/
theorem CrossFade.input_goes_to_one_view_tied :
    (∃ c, swapAt (5 : ℚ) 0 10 (1 / 10) = .ok c ∧ c.outgoingOpacity = c.incomingOpacity ∧
      c.outgoingInteractive = true ∧ c.incomingInteractive = false) ∧
    (∃ cause, swapAt (5 : ℚ) 10 0 (1 / 10) = .error (.rejected cause)) ∧
    ∃ s : DnsVerification.State ℚ, @DnsVerification.state ℚ _ overshootingSprings
        (@Stage.ofRate ℚ _ overshootingSprings 30) (1 / 10) (239 / 2) = .ok s ∧
      s.dnsOpacity = s.deaddropOpacity ∧ s.dnsInteractive = true ∧
        s.deaddropInteractive = false := by
  let _ := overshootingSprings
  obtain ⟨hfades, hrefused, hscene⟩ := input_goes_to_one_view
  refine ⟨?_, hrefused _ _ _ _ (by norm_num), ?_⟩
  · obtain ⟨c, hc, hshares⟩ := (hfades 0 10 (1 / 10) (by norm_num)).1 5
    have htie : (do
        let c ← swapAt (5 : ℚ) 0 10 (1 / 10)
        return (c.incomingOpacity, c.outgoingInteractive)) = .ok (1 / 2, true) := by
      decide +kernel
    rw [hc] at htie
    obtain ⟨hopacity, htakes⟩ := Prod.mk.inj (Except.ok.inj htie)
    refine ⟨c, hc, by linarith [hshares.sum], htakes, ?_⟩
    exact Bool.eq_false_iff.mpr fun htakes' => hshares.atMostOne ⟨htakes, htakes'⟩
  · obtain ⟨hshared, htotal⟩ := hscene 30 (1 / 10) (239 / 2)
    obtain ⟨s, hs⟩ := htotal fun _ _ => ⟨3 / 2, rfl⟩
    have hshares := hshared s hs
    have htie : (do
        let v ← DnsVerification.views (239 / 2 : ℚ) (1 / 10)
        return (v.dnsOpacity, v.dnsInteractive)) = .ok (1 / 2, true) := by
      decide +kernel
    rw [(DnsVerification.parts_of_state hs).1] at htie
    obtain ⟨hopacity, htakes⟩ := Prod.mk.inj (Except.ok.inj htie)
    refine ⟨s, hs, by linarith [hshares.sum], htakes, ?_⟩
    exact Bool.eq_false_iff.mpr fun htakes' => hshares.atMostOne ⟨htakes', htakes⟩

end Showreel
