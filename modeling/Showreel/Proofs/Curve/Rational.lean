import Mathlib.Data.List.GetD
import Mathlib.Data.List.Pairwise
import Showreel.Curve
import Showreel.Proofs.Arith.Rational

/-!
# Curves in exact arithmetic

A curve whose breakpoints are in order has a value everywhere. Behind all breakpoints and in front
of them all it is told by the policy for that side. Every other place lies between two neighbouring
breakpoints that differ, where the curve runs from the one value to the other, straight or as its
easing bends the way.
-/

namespace Showreel

open Arith (ofInt)

namespace Curve

/-- As many values as breakpoints, at least two, and the breakpoints in order. -/
structure IsOrdered (c : Curve ℚ) : Prop where
  counts : c.breakpoints.length = c.values.length
  two : 2 ≤ c.breakpoints.length
  sorted : c.breakpoints.Pairwise (· ≤ ·)

/-- Two neighbouring keyframes. -/
structure Neighbours (c : Curve ℚ) (i : Nat) (b₀ b₁ v₀ v₁ : ℚ) : Prop where
  front : c.breakpoints[i]? = some b₀
  back : c.breakpoints[i + 1]? = some b₁
  frontValue : c.values[i]? = some v₀
  backValue : c.values[i + 1]? = some v₁

/-- The share of the way from one value to the next at a share of the way between their
breakpoints. -/
def eased (c : Curve ℚ) (share : ℚ) : Except Fault ℚ :=
  match c.easing with
  | some e => e share
  | none => .ok share

/-- The line through two keyframes, a step where they share a breakpoint. -/
def line (b₀ b₁ v₀ v₁ x : ℚ) : ℚ :=
  if b₁ = b₀ then if x < b₀ then v₀ else v₁ else v₀ + (v₁ - v₀) / (b₁ - b₀) * (x - b₀)

theorem extended_rat (b₀ b₁ v₀ v₁ x : ℚ) :
    extended x b₀ b₁ v₀ v₁ = .ok (line b₀ b₁ v₀ v₁ x) := by
  unfold extended line
  by_cases h : b₁ = b₀
  · rw [if_pos (beq_iff_eq.mpr h), if_pos h, Arith.lt_rat, ok_bind]
    split
    case isTrue hx => rw [if_pos (of_decide_eq_true hx), Arith.widen_rat]
    case isFalse hx => rw [if_neg (by simpa using hx), Arith.widen_rat]
  · rw [if_neg (mt beq_iff_eq.mp h), if_neg h, Arith.sub_rat, ok_bind, Arith.sub_rat, ok_bind,
      Arith.div_rat (sub_ne_zero.mpr h), ok_bind, Arith.sub_rat, ok_bind, Arith.mul_rat, ok_bind,
      Arith.add_rat]

theorem line_back (b₀ b₁ v₀ v₁ : ℚ) : line b₀ b₁ v₀ v₁ b₁ = v₁ := by
  unfold line
  split
  case isTrue h => rw [if_neg (by rw [h]; exact lt_irrefl b₀)]
  case isFalse h =>
    rw [div_mul_cancel₀ _ (sub_ne_zero.mpr h)]
    ring

/-- Where a curve is beyond an edge: it holds the edge value or goes on along the line. -/
def onward (policy : Extrapolation) (edge line : ℚ) : ℚ :=
  match policy with
  | .clamp => edge
  | .extend => line

namespace Neighbours

variable {c : Curve ℚ} {i : Nat} {b₀ b₁ v₀ v₁ x : ℚ}

theorem share_mem (hlow : b₀ ≤ x) (hhigh : x < b₁) :
    0 ≤ (x - b₀) / (b₁ - b₀) ∧ (x - b₀) / (b₁ - b₀) < 1 := by
  have hgap : 0 < b₁ - b₀ := by linarith
  exact ⟨div_nonneg (by linarith) hgap.le, (div_lt_one hgap).mpr (by linarith)⟩

theorem beyond_eq (h : c.Neighbours (c.breakpoints.length - 2) b₀ b₁ v₀ v₁)
    (htwo : 2 ≤ c.breakpoints.length) (hx : b₁ ≤ x) :
    c.beyond x b₁ = .ok (onward c.after v₁ (line b₀ b₁ v₀ v₁ x)) := by
  have hlast : c.breakpoints.length - 2 + 1 = c.breakpoints.length - 1 := by omega
  have hvalue := h.backValue
  rw [hlast] at hvalue
  unfold beyond
  dsimp only
  rw [entryAt_eq_ok_iff.mpr hvalue, ok_bind]
  cases c.after with
  | clamp => rfl
  | extend =>
    dsimp only [onward]
    rw [Arith.lt_rat, ok_bind, entryAt_eq_ok_iff.mpr h.front, ok_bind,
      entryAt_eq_ok_iff.mpr h.frontValue, ok_bind, extended_rat]
    split
    case isTrue => rfl
    case isFalse hnot =>
      obtain rfl : x = b₁ := le_antisymm (by simpa using hnot) hx
      rw [line_back, Arith.widen_rat]

theorem ahead_eq (h : c.Neighbours 0 b₀ b₁ v₀ v₁) :
    c.ahead x b₀ = .ok (onward c.before v₀ (line b₀ b₁ v₀ v₁ x)) := by
  unfold ahead
  rw [entryAt_eq_ok_iff.mpr h.frontValue, ok_bind]
  cases c.before with
  | clamp => rfl
  | extend =>
    dsimp only [onward]
    rw [entryAt_eq_ok_iff.mpr h.back, ok_bind, entryAt_eq_ok_iff.mpr h.backValue, ok_bind,
      extended_rat]

theorem within_eq (h : c.Neighbours i b₀ b₁ v₀ v₁) (hne : b₁ ≠ b₀) :
    c.within i x = c.eased ((x - b₀) / (b₁ - b₀)) >>= fun y => .ok (v₀ + (v₁ - v₀) * y) := by
  unfold within
  rw [entryAt_eq_ok_iff.mpr h.front, ok_bind, entryAt_eq_ok_iff.mpr h.back, ok_bind,
    entryAt_eq_ok_iff.mpr h.frontValue, ok_bind, entryAt_eq_ok_iff.mpr h.backValue, ok_bind,
    if_neg (mt beq_iff_eq.mp hne), Arith.sub_rat, ok_bind, Arith.sub_rat, ok_bind,
    Arith.div_rat (sub_ne_zero.mpr hne), ok_bind]
  unfold eased
  cases c.easing <;> rfl

end Neighbours

variable {c : Curve ℚ} {x : ℚ}

/-! ## Construction -/

theorem decreases_rat (bs : List ℚ) :
    decreases bs = .ok (decide ¬ bs.Pairwise (· ≤ ·)) := by
  simp only [← List.isChain_iff_pairwise]
  induction bs with
  | nil => rfl
  | cons a rest ih =>
    cases rest with
    | nil => rfl
    | cons b rest =>
      rw [decreases, Arith.lt_rat, ok_bind, ih]
      by_cases h : b < a
      · simp [h]
      · simp [h, not_lt.mp h]

namespace IsOrdered

variable (h : c.IsOrdered)

include h

theorem build_eq :
    build c.breakpoints c.values (.known c.before) (.known c.after) c.easing = .ok c := by
  have htwo := h.two
  unfold build
  rw [if_neg (not_not.mpr h.counts), if_neg (by omega), decreases_rat,
    decide_eq_false (not_not.mpr h.sorted)]
  rfl

/-- Breakpoints are in the order of their positions. -/
theorem le_of_le {i j : Nat} {b b' : ℚ} (hij : i ≤ j) (hb : c.breakpoints[i]? = some b)
    (hb' : c.breakpoints[j]? = some b') : b ≤ b' := by
  obtain ⟨hi, rfl⟩ := List.getElem?_eq_some_iff.mp hb
  obtain ⟨hj, rfl⟩ := List.getElem?_eq_some_iff.mp hb'
  exact h.sorted.rel_get_of_le (a := ⟨i, hi⟩) (b := ⟨j, hj⟩) hij

theorem exists_neighbours {i : Nat} (hi : i + 1 < c.breakpoints.length) :
    ∃ b₀ b₁ v₀ v₁, c.Neighbours i b₀ b₁ v₀ v₁ := by
  have hcounts := h.counts
  exact ⟨_, _, _, _, List.getElem?_eq_getElem (by omega), List.getElem?_eq_getElem hi,
    List.getElem?_eq_getElem (by omega), List.getElem?_eq_getElem (by omega)⟩

/-! ## Evaluation -/

/-- The breakpoints up to a place are counted by halving. -/
theorem exists_countUpTo (x : ℚ) :
    ∃ k ≤ c.breakpoints.length, Arith.countUpTo c.breakpoints x = .ok k ∧
      ∀ i b, c.breakpoints[i]? = some b → (x < b ↔ k ≤ i) := by
  have hentry : ∀ i b, c.breakpoints[i]? = some b → c.breakpoints.getD i (x + 1) = b := by
    intro i b hb
    rw [List.getD_eq_getElem?_getD, hb, Option.getD_some]
  have hlt : ∀ i b, c.breakpoints[i]? = some b →
      Arith.lt x b = .ok (decide (x < c.breakpoints.getD i (x + 1))) := by
    intro i b hb
    rw [hentry i b hb, Arith.lt_rat]
  have hmono : ∀ i j, i ≤ j → x < c.breakpoints.getD i (x + 1) →
      x < c.breakpoints.getD j (x + 1) := by
    intro i j hij habove
    by_cases hj : j < c.breakpoints.length
    · have hb := List.getElem?_eq_getElem hj
      have hb' := List.getElem?_eq_getElem (hij.trans_lt hj)
      rw [hentry _ _ hb]
      rw [hentry _ _ hb'] at habove
      exact habove.trans_le (h.le_of_le hij hb' hb)
    · rw [List.getD_eq_default _ _ (not_lt.mp hj)]
      exact lt_add_one x
  obtain ⟨k, hk, hcount, hiff⟩ := Arith.countUpTo_eq hlt hmono
  refine ⟨k, hk, hcount, fun i b hb => ?_⟩
  obtain ⟨hi, -⟩ := List.getElem?_eq_some_iff.mp hb
  rw [← hiff i hi, hentry i b hb]

/-- From the last breakpoint on a curve is told by its policy for that side, in front of the first
one by the other policy, and elsewhere by the two keyframes around the place. -/
theorem valueAt_cases (x : ℚ) :
    ∃ i b₀ b₁ v₀ v₁, c.Neighbours i b₀ b₁ v₀ v₁ ∧
      (i + 2 = c.breakpoints.length ∧ b₁ ≤ x ∧
          c.valueAt x = .ok (onward c.after v₁ (line b₀ b₁ v₀ v₁ x)) ∨
        i = 0 ∧ x < b₀ ∧ c.valueAt x = .ok (onward c.before v₀ (line b₀ b₁ v₀ v₁ x)) ∨
        b₀ ≤ x ∧ x < b₁ ∧
          c.valueAt x = c.eased ((x - b₀) / (b₁ - b₀)) >>= fun y => .ok (v₀ + (v₁ - v₀) * y)) := by
  have htwo := h.two
  obtain ⟨b₀, last, v₀, vLast, hlast⟩ :=
    h.exists_neighbours (i := c.breakpoints.length - 2) (by omega)
  obtain ⟨first, b₁, vFirst, v₁, hfirst⟩ := h.exists_neighbours (i := 0) (by omega)
  have hback := hlast.back
  rw [show c.breakpoints.length - 2 + 1 = c.breakpoints.length - 1 by omega] at hback
  unfold valueAt
  rw [entryAt_eq_ok_iff.mpr hback, ok_bind, Arith.le_rat, ok_bind,
    entryAt_eq_ok_iff.mpr hfirst.front, ok_bind, Arith.lt_rat, ok_bind]
  by_cases hbehind : last ≤ x
  · refine ⟨_, b₀, last, v₀, vLast, hlast, .inl ⟨by omega, hbehind, ?_⟩⟩
    rw [if_pos (decide_eq_true hbehind), hlast.beyond_eq htwo hbehind]
  · rw [if_neg (by simpa using hbehind)]
    by_cases hahead : x < first
    · refine ⟨0, first, b₁, vFirst, v₁, hfirst, .inr (.inl ⟨rfl, hahead, ?_⟩)⟩
      rw [if_pos (decide_eq_true hahead), hfirst.ahead_eq]
    · rw [if_neg (by simpa using hahead)]
      obtain ⟨k, hk, hcount, hiff⟩ := h.exists_countUpTo x
      have hpos : ¬ k ≤ 0 := mt (hiff 0 first hfirst.front).mpr hahead
      have hend := (hiff _ last hback).mp (not_le.mp hbehind)
      obtain ⟨b₀, b₁, v₀, v₁, hneighbours⟩ := h.exists_neighbours (i := k - 1) (by omega)
      have hlow : b₀ ≤ x := not_lt.mp (mt (hiff _ b₀ hneighbours.front).mp (by omega))
      have hhigh : x < b₁ := (hiff _ b₁ hneighbours.back).mpr (by omega)
      refine ⟨k - 1, b₀, b₁, v₀, v₁, hneighbours, .inr (.inr ⟨hlow, hhigh, ?_⟩)⟩
      rw [hcount, ok_bind, hneighbours.within_eq (hlow.trans_lt hhigh).ne']

/-- A curve that can be eased everywhere has a value everywhere. -/
theorem exists_valueAt (heased : ∀ s, 0 ≤ s → s < 1 → ∃ y, c.eased s = .ok y) (x : ℚ) :
    ∃ y, c.valueAt x = .ok y := by
  obtain ⟨i, b₀, b₁, v₀, v₁, hneighbours, hvalue⟩ := h.valueAt_cases x
  rcases hvalue with ⟨-, -, hvalue⟩ | ⟨-, -, hvalue⟩ | ⟨hlow, hhigh, hvalue⟩
  · exact ⟨_, hvalue⟩
  · exact ⟨_, hvalue⟩
  · have hshare := Neighbours.share_mem hlow hhigh
    obtain ⟨y, hy⟩ := heased _ hshare.1 hshare.2
    exact ⟨_, by rw [hvalue, hy, ok_bind]⟩

/-- A curve that is held at its ends, eased within the unit interval if at all, keeps the bounds of
its values. -/
theorem exists_valueAt_mem (hbefore : c.before = .clamp) (hafter : c.after = .clamp)
    (heased : ∀ s, 0 ≤ s → s < 1 → ∃ y, c.eased s = .ok y ∧ 0 ≤ y ∧ y ≤ 1) {low high : ℚ}
    (hvalues : ∀ v ∈ c.values, low ≤ v ∧ v ≤ high) (x : ℚ) :
    ∃ y, c.valueAt x = .ok y ∧ low ≤ y ∧ y ≤ high := by
  obtain ⟨i, b₀, b₁, v₀, v₁, hneighbours, hvalue⟩ := h.valueAt_cases x
  obtain ⟨hlow₀, hhigh₀⟩ := hvalues v₀ (List.mem_of_getElem? hneighbours.frontValue)
  obtain ⟨hlow₁, hhigh₁⟩ := hvalues v₁ (List.mem_of_getElem? hneighbours.backValue)
  rcases hvalue with ⟨-, -, hvalue⟩ | ⟨-, -, hvalue⟩ | ⟨hfront, hback, hvalue⟩
  · rw [hafter] at hvalue
    exact ⟨v₁, hvalue, hlow₁, hhigh₁⟩
  · rw [hbefore] at hvalue
    exact ⟨v₀, hvalue, hlow₀, hhigh₀⟩
  · have hshare := Neighbours.share_mem hfront hback
    obtain ⟨y, hy, hy₀, hy₁⟩ := heased _ hshare.1 hshare.2
    -- What is eased is the mean of the two values with the shares `1 - y` and `y`.
    have hmean : v₀ + (v₁ - v₀) * y = (1 - y) * v₀ + y * v₁ := by ring
    have hrest : 0 ≤ 1 - y := sub_nonneg.mpr hy₁
    refine ⟨_, by rw [hvalue, hy, ok_bind], ?_, ?_⟩
    · rw [hmean]
      calc low = (1 - y) * low + y * low := by ring
        _ ≤ (1 - y) * v₀ + y * v₁ := by gcongr
    · rw [hmean]
      calc (1 - y) * v₀ + y * v₁ ≤ (1 - y) * high + y * high := by gcongr
        _ = high := by ring

end IsOrdered

end Curve

/-! ## Ramps -/

section Ramps

open Curve

variable {bs vs : List ℚ}

/-- A curve through keyframes that is not eased. -/
theorem interpolate_rat {before after : Extrapolation} (h : IsOrdered
      { breakpoints := bs, values := vs, before, after }) (x : ℚ) :
    interpolate x bs vs (.known before) (.known after) none =
      Curve.valueAt { breakpoints := bs, values := vs, before, after } x := by
  have hbuild := h.build_eq
  dsimp only at hbuild
  unfold interpolate
  rw [hbuild, ok_bind]

/-- A curve through keyframes in order has a value everywhere, whatever it does beyond its ends. -/
theorem exists_interpolate_rat (hsorted : bs.Pairwise (· ≤ ·)) (hcounts : bs.length = vs.length)
    (htwo : 2 ≤ bs.length) (before after : Extrapolation) (x : ℚ) :
    ∃ y, interpolate x bs vs (.known before) (.known after) none = .ok y := by
  have h : IsOrdered { breakpoints := bs, values := vs, before, after } := ⟨hcounts, htwo, hsorted⟩
  rw [interpolate_rat h]
  exact h.exists_valueAt (fun s _ _ => ⟨s, rfl⟩) x

/-- A ramp through keyframes in order keeps the bounds of its values. -/
theorem exists_ramp_mem (hsorted : bs.Pairwise (· ≤ ·)) (hcounts : bs.length = vs.length)
    (htwo : 2 ≤ bs.length) {low high : ℚ} (hvalues : ∀ v ∈ vs, low ≤ v ∧ v ≤ high) (x : ℚ) :
    ∃ y, ramp x bs vs = .ok y ∧ low ≤ y ∧ y ≤ high := by
  have h : IsOrdered { breakpoints := bs, values := vs } := ⟨hcounts, htwo, hsorted⟩
  unfold ramp
  rw [interpolate_rat h]
  exact h.exists_valueAt_mem rfl rfl (fun s hs hs' => ⟨s, rfl, hs, hs'.le⟩) hvalues x

/-- A ramp over the unit interval that goes on beyond one starts where it is held below zero. -/
theorem rampOnward_rat (v₀ v₁ x : ℚ) :
    rampOnward x [ofInt 0, ofInt 1] [v₀, v₁] = .ok (v₀ + (v₁ - v₀) * max 0 x) := by
  have h : IsOrdered { breakpoints := [ofInt 0, ofInt 1], values := [v₀, v₁], after := .extend } :=
    ⟨rfl, le_rfl, by simp⟩
  unfold rampOnward
  rw [interpolate_rat h]
  obtain ⟨i, b₀, b₁, w₀, w₁, hneighbours, hvalue⟩ := h.valueAt_cases x
  obtain rfl : i = 0 := by
    obtain ⟨hi, -⟩ := List.getElem?_eq_some_iff.mp hneighbours.back
    exact Nat.lt_one_iff.mp (Nat.lt_of_succ_lt_succ hi)
  obtain rfl : (0 : ℚ) = b₀ := by simpa using hneighbours.front
  obtain rfl : (1 : ℚ) = b₁ := by simpa using hneighbours.back
  obtain rfl : v₀ = w₀ := by simpa using hneighbours.frontValue
  obtain rfl : v₁ = w₁ := by simpa using hneighbours.backValue
  rcases hvalue with ⟨-, hx, hvalue⟩ | ⟨-, hx, hvalue⟩ | ⟨hx, -, hvalue⟩
  · have hline : line 0 1 v₀ v₁ x = v₀ + (v₁ - v₀) * x := by simp [line]
    rw [hvalue, onward, hline, max_eq_right (by linarith)]
  · rw [hvalue, onward, max_eq_left hx.le, mul_zero, add_zero]
  · rw [hvalue, max_eq_right hx]
    simp [eased]

end Ramps

end Showreel
