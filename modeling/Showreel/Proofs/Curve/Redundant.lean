import Showreel.Proofs.Curve.Runs

/-!
# Keyframes that tell nothing

A keyframe between two others tells nothing if the curve jumps past it, all three being at one
breakpoint, or if a straight curve passes it on its way from the one to the other. Left out, it
leaves the curve as it was at every place, although every keyframe behind it moves up and an edge
piece may be told by other keyframes than before. So keyframes can also be put on a straight curve
wherever it does not jump.
-/

namespace Showreel

namespace Curve

variable {c : Curve ℚ} {i k : Nat} {b₀ b b₁ v₀ v v₁ x : ℚ}

/-! ## Leaving a keyframe out -/

/-- The curve without the keyframe at a position. -/
def without (c : Curve ℚ) (k : Nat) : Curve ℚ :=
  { c with breakpoints := c.breakpoints.eraseIdx k, values := c.values.eraseIdx k }

theorem IsOrdered.exists_three (h : c.IsOrdered) (hi : i + 2 < c.breakpoints.length) :
    ∃ b₀ b b₁ v₀ v v₁, c.Neighbours i b₀ b v₀ v ∧ c.Neighbours (i + 1) b b₁ v v₁ := by
  obtain ⟨b₀, b, v₀, v, hfront⟩ := h.exists_neighbours (i := i) (by omega)
  obtain ⟨b', b₁, v', v₁, hback⟩ := h.exists_neighbours (i := i + 1) hi
  obtain rfl := Option.some.inj (hfront.back.symm.trans hback.front)
  obtain rfl := Option.some.inj (hfront.backValue.symm.trans hback.frontValue)
  exact ⟨b₀, b, b₁, v₀, v, v₁, hfront, hback⟩

theorem IsOrdered.without (h : c.IsOrdered) (hlength : 3 ≤ c.breakpoints.length)
    (hk : k < c.breakpoints.length) : (c.without k).IsOrdered where
  counts := by
    have hcounts := h.counts
    simp only [Curve.without, List.length_eraseIdx_of_lt hk,
      List.length_eraseIdx_of_lt (hcounts ▸ hk), hcounts]
  two := by
    simp only [Curve.without, List.length_eraseIdx_of_lt hk]
    omega
  sorted := h.sorted.sublist (List.eraseIdx_sublist _ _)

namespace Neighbours

/-- Keyframes in front of the one that is left out keep their position. -/
theorem of_without_front (h : (c.without k).Neighbours i b₀ b₁ v₀ v₁) (hi : i + 1 < k) :
    c.Neighbours i b₀ b₁ v₀ v₁ := by
  obtain ⟨hfront, hback, hfrontValue, hbackValue⟩ := h
  simp only [without, List.getElem?_eraseIdx, if_pos hi, if_pos (Nat.lt_of_succ_lt hi)] at *
  exact ⟨hfront, hback, hfrontValue, hbackValue⟩

/-- Keyframes behind the one that is left out move up by one position. -/
theorem of_without_back (h : (c.without k).Neighbours i b₀ b₁ v₀ v₁) (hi : k ≤ i) :
    c.Neighbours (i + 1) b₀ b₁ v₀ v₁ := by
  obtain ⟨hfront, hback, hfrontValue, hbackValue⟩ := h
  simp only [without, List.getElem?_eraseIdx, if_neg (show ¬ i < k by omega),
    if_neg (show ¬ i + 1 < k by omega)] at *
  exact ⟨hfront, hback, hfrontValue, hbackValue⟩

/-- The keyframes on both sides of the one that is left out become neighbours. -/
theorem of_without_across {b₀' b₁' v₀' v₁' : ℚ}
    (h : (c.without (i + 1)).Neighbours i b₀' b₁' v₀' v₁') (hfront : c.Neighbours i b₀ b v₀ v)
    (hback : c.Neighbours (i + 1) b b₁ v v₁) : b₀ = b₀' ∧ b₁ = b₁' ∧ v₀ = v₀' ∧ v₁ = v₁' := by
  have hacross : (c.without (i + 1)).Neighbours i b₀ b₁ v₀ v₁ := by
    refine ⟨?_, ?_, ?_, ?_⟩
    · rw [without, List.getElem?_eraseIdx, if_pos (Nat.lt_succ_self i), hfront.front]
    · rw [without, List.getElem?_eraseIdx, if_neg (lt_irrefl _), hback.back]
    · rw [without, List.getElem?_eraseIdx, if_pos (Nat.lt_succ_self i), hfront.frontValue]
    · rw [without, List.getElem?_eraseIdx, if_neg (lt_irrefl _), hback.backValue]
  exact hacross.unique h

end Neighbours

/-! ## Keyframes that tell nothing -/

/-- The line through two keyframes passes every point that is on it. -/
theorem line_trans (hfront : b₀ < b) (hback : b < b₁) (hv : v = line b₀ b₁ v₀ v₁ b) (x : ℚ) :
    line b₀ b v₀ v x = line b₀ b₁ v₀ v₁ x ∧ line b b₁ v v₁ x = line b₀ b₁ v₀ v₁ x := by
  have hgap : b₁ - b₀ ≠ 0 := by linarith
  have hgap₀ : b - b₀ ≠ 0 := by linarith
  have hgap₁ : b₁ - b ≠ 0 := by linarith
  unfold line at hv ⊢
  rw [if_neg (sub_ne_zero.mp hgap)] at hv
  rw [if_neg (sub_ne_zero.mp hgap), if_neg (sub_ne_zero.mp hgap₀), if_neg (sub_ne_zero.mp hgap₁)]
  subst hv
  constructor
  · field_simp
    ring
  · field_simp
    ring

/-- The second of three keyframes in a row tells nothing: the curve jumps past it, or goes straight
through it. -/
inductive IsRedundant (c : Curve ℚ) (b₀ b b₁ v₀ v v₁ : ℚ) : Prop
  | passed (front : b = b₀) (back : b₁ = b)
  | straight (plain : c.easing = none) (front : b₀ < b) (back : b < b₁)
      (value : v = line b₀ b₁ v₀ v₁ b)

namespace IsRedundant

theorem line_ahead (h : c.IsRedundant b₀ b b₁ v₀ v v₁) (hx : x < b₀) :
    line b₀ b v₀ v x = line b₀ b₁ v₀ v₁ x := by
  cases h with
  | passed front back =>
    rw [Neighbours.line_ahead hx, Neighbours.line_ahead hx, if_pos front, if_pos (back.trans front)]
  | straight plain front back value => exact (line_trans front back value x).1

theorem line_beyond (h : c.IsRedundant b₀ b b₁ v₀ v v₁) (hx : b₁ ≤ x) :
    line b b₁ v v₁ x = line b₀ b₁ v₀ v₁ x := by
  cases h with
  | passed front back =>
    rw [Neighbours.line_beyond hx, Neighbours.line_beyond hx, if_pos back,
      if_pos (back.trans front)]
  | straight plain front back value => exact (line_trans front back value x).2

end IsRedundant

/-- Between two keyframes a curve that is not eased is on the line through them. -/
theorem IsOrdered.valueAt_straight (h : c.IsOrdered) (hplain : c.easing = none)
    (hn : c.Neighbours i b₀ b₁ v₀ v₁) (hx : b₀ ≤ x) (hx' : x < b₁) :
    c.valueAt x = .ok (line b₀ b₁ v₀ v₁ x) := by
  rw [h.valueAt_between hn hx hx', eased, hplain, ok_bind, line,
    if_neg (hx.trans_lt hx').ne', div_mul_eq_mul_div, mul_div_assoc]

section Without

variable (h : c.IsOrdered) (hfront : c.Neighbours i b₀ b v₀ v)
  (hback : c.Neighbours (i + 1) b b₁ v v₁) (hred : c.IsRedundant b₀ b b₁ v₀ v v₁)

include h hfront hback hred

/-- Between its two neighbours a keyframe that tells nothing leaves the curve as it is without it:
where there is a place between them, the curve goes straight. -/
theorem IsOrdered.valueAt_without_across (h' : (c.without (i + 1)).IsOrdered)
    (hn : (c.without (i + 1)).Neighbours i b₀ b₁ v₀ v₁) (hx : b₀ ≤ x) (hx' : x < b₁) :
    (c.without (i + 1)).valueAt x = c.valueAt x := by
  cases hred with
  | passed front back => linarith
  | straight plain front back value =>
    rw [h'.valueAt_straight plain hn hx hx']
    rcases lt_or_ge x b with hlt | hge
    · rw [h.valueAt_straight plain hfront hx hlt, (line_trans front back value x).1]
    · rw [h.valueAt_straight plain hback hge hx', (line_trans front back value x).2]

/-- A curve is the same without a keyframe that tells nothing. -/
theorem IsOrdered.valueAt_without (x : ℚ) : (c.without (i + 1)).valueAt x = c.valueAt x := by
  obtain ⟨hlt, -⟩ := List.getElem?_eq_some_iff.mp hback.back
  have h' : (c.without (i + 1)).IsOrdered := h.without (by omega) (by omega)
  have hlength : (c.without (i + 1)).breakpoints.length = c.breakpoints.length - 1 :=
    List.length_eraseIdx_of_lt (by omega)
  obtain ⟨j, d₀, d₁, w₀, w₁, hn, hcases⟩ := h'.valueAt_cases x
  -- The piece that the place is on lies in front of the keyframe, reaches across it or lies behind.
  rcases lt_trichotomy j i with hj | rfl | hj
  · have hn' := hn.of_without_front (by omega)
    rcases hcases with ⟨hend, -, -⟩ | ⟨hstart, hx, hvalue⟩ | ⟨hx, hx', hvalue⟩
    · omega
    · rw [hvalue, h.valueAt_ahead hn' hstart hx]
      rfl
    · rw [hvalue, h.valueAt_between hn' hx hx']
      rfl
  · obtain ⟨rfl, rfl, rfl, rfl⟩ := hn.of_without_across hfront hback
    rcases hcases with ⟨hend, hx, hvalue⟩ | ⟨hstart, hx, hvalue⟩ | ⟨hx, hx', -⟩
    · rw [hvalue, h.valueAt_beyond hback (by omega) hx, hred.line_beyond hx]
      rfl
    · rw [hvalue, h.valueAt_ahead hfront hstart hx, hred.line_ahead hx]
      rfl
    · exact h.valueAt_without_across hfront hback hred h' hn hx hx'
  · have hn' := hn.of_without_back hj
    rcases hcases with ⟨hend, hx, hvalue⟩ | ⟨hstart, -, -⟩ | ⟨hx, hx', hvalue⟩
    · rw [hvalue, h.valueAt_beyond hn' (by omega) hx]
      rfl
    · omega
    · rw [hvalue, h.valueAt_between hn' hx hx']
      rfl

end Without

/-! ## Putting a keyframe in -/

/-- Breakpoints are in order if none is below the one in front of it. -/
theorem pairwise_of_steps {bs : List ℚ}
    (h : ∀ (j : Nat) (a a' : ℚ), bs[j]? = some a → bs[j + 1]? = some a' → a ≤ a') :
    bs.Pairwise (· ≤ ·) := by
  rw [← List.isChain_iff_pairwise, List.isChain_iff_getElem]
  exact fun j hj => h j _ _ (List.getElem?_eq_getElem _) (List.getElem?_eq_getElem hj)

/-- The curve with one more keyframe at a position. -/
def insert (c : Curve ℚ) (k : Nat) (b v : ℚ) : Curve ℚ :=
  { c with breakpoints := c.breakpoints.insertIdx k b, values := c.values.insertIdx k v }

theorem insert_without (c : Curve ℚ) (k : Nat) (b v : ℚ) : (c.insert k b v).without k = c := by
  simp only [without, insert, List.eraseIdx_insertIdx_self]

section Insert

variable (h : c.IsOrdered) (hn : c.Neighbours i b₀ b₁ v₀ v₁)

include h hn

theorem IsOrdered.neighbours_insert (b v : ℚ) :
    (c.insert (i + 1) b v).Neighbours i b₀ b v₀ v ∧
      (c.insert (i + 1) b v).Neighbours (i + 1) b b₁ v v₁ := by
  obtain ⟨hlt, -⟩ := List.getElem?_eq_some_iff.mp hn.back
  have hcounts := h.counts
  have hself : (c.insert (i + 1) b v).breakpoints[i + 1]? = some b := by
    rw [insert, List.getElem?_insertIdx_self, if_pos hlt.le]
  have hselfValue : (c.insert (i + 1) b v).values[i + 1]? = some v := by
    rw [insert, List.getElem?_insertIdx_self, if_pos (by omega)]
  refine ⟨⟨?_, hself, ?_, hselfValue⟩, ⟨hself, ?_, hselfValue, ?_⟩⟩
  · exact (List.getElem?_insertIdx_of_lt (Nat.lt_succ_self i)).trans hn.front
  · exact (List.getElem?_insertIdx_of_lt (Nat.lt_succ_self i)).trans hn.frontValue
  · exact (List.getElem?_insertIdx_of_gt (Nat.lt_succ_self _)).trans hn.back
  · exact (List.getElem?_insertIdx_of_gt (Nat.lt_succ_self _)).trans hn.backValue

/-- A breakpoint between two neighbouring ones keeps the breakpoints in order. -/
theorem IsOrdered.insert (hb : b₀ ≤ b) (hb' : b ≤ b₁) (v : ℚ) :
    (c.insert (i + 1) b v).IsOrdered := by
  obtain ⟨hlt, -⟩ := List.getElem?_eq_some_iff.mp hn.back
  have hcounts := h.counts
  have htwo := h.two
  have hlength : (c.breakpoints.insertIdx (i + 1) b).length = c.breakpoints.length + 1 :=
    List.length_insertIdx_of_le_length hlt.le b
  obtain ⟨hfront, hback⟩ := h.neighbours_insert hn b v
  refine ⟨?_, by rw [Curve.insert, hlength]; omega, ?_⟩
  · rw [Curve.insert, hlength, hcounts]
    exact (List.length_insertIdx_of_le_length (by omega) v).symm
  · refine pairwise_of_steps fun j a a' ha ha' => ?_
    -- Only the steps to the new breakpoint and from it are new.
    rcases (by omega : j < i ∨ j = i ∨ j = i + 1 ∨ i + 1 < j) with hji | rfl | rfl | hji
    · rw [Curve.insert, List.getElem?_insertIdx_of_lt (by omega)] at ha ha'
      exact h.le_of_le (Nat.le_succ j) ha ha'
    · obtain rfl := Option.some.inj (hfront.front.symm.trans ha)
      obtain rfl := Option.some.inj (hfront.back.symm.trans ha')
      exact hb
    · obtain rfl := Option.some.inj (hback.front.symm.trans ha)
      obtain rfl := Option.some.inj (hback.back.symm.trans ha')
      exact hb'
    · rw [Curve.insert, List.getElem?_insertIdx_of_gt (by omega)] at ha ha'
      exact h.le_of_le (by omega) ha ha'

end Insert

/-- A keyframe between two others whose breakpoint is theirs can be deleted, and a curve that is not
eased can be given another keyframe at any place between two neighbouring breakpoints, where it is
anyway: the curve is accepted as before, and it is the same at every place, however it goes on
beyond its ends. -/
theorem redundant_keyframes_change_nothing (bs vs : List ℚ) (before after : Choice Extrapolation)
    (easing : Option (ℚ → Except Fault ℚ)) (c : Curve ℚ)
    (hc : build bs vs before after easing = .ok c) :
    (∀ (i : Nat) (b : ℚ), bs[i]? = some b → bs[i + 1]? = some b → bs[i + 2]? = some b →
      ∃ c', build (bs.eraseIdx (i + 1)) (vs.eraseIdx (i + 1)) before after easing = .ok c' ∧
        ∀ x, c'.valueAt x = c.valueAt x) ∧
    (easing = none → ∀ (i : Nat) (b₀ b b₁ : ℚ), bs[i]? = some b₀ → bs[i + 1]? = some b₁ →
      b₀ < b → b < b₁ → ∃ v, c.valueAt b = .ok v ∧
        ∃ c', build (bs.insertIdx (i + 1) b) (vs.insertIdx (i + 1) v) before after easing =
            .ok c' ∧
          ∀ x, ∃ y, c.valueAt x = .ok y ∧ c'.valueAt x = .ok y) := by
  obtain ⟨h, rfl, rfl, rfl, rfl, rfl⟩ := build_eq_ok_iff.mp hc
  constructor
  · intro i b hb₀ hb hb₁
    obtain ⟨hlt, -⟩ := List.getElem?_eq_some_iff.mp hb₁
    obtain ⟨_, _, _, v₀, v, v₁, hfront, hback⟩ := h.exists_three hlt
    obtain rfl := Option.some.inj (hb₀.symm.trans hfront.front)
    obtain rfl := Option.some.inj (hb.symm.trans hfront.back)
    obtain rfl := Option.some.inj (hb₁.symm.trans hback.back)
    exact ⟨c.without (i + 1), (h.without (by omega) (by omega)).build_eq,
      h.valueAt_without hfront hback (.passed rfl rfl)⟩
  · intro hplain i b₀ b b₁ hb₀ hb₁ hlt hlt'
    obtain ⟨hi, -⟩ := List.getElem?_eq_some_iff.mp hb₁
    obtain ⟨_, _, v₀, v₁, hn⟩ := h.exists_neighbours hi
    obtain rfl := Option.some.inj (hb₀.symm.trans hn.front)
    obtain rfl := Option.some.inj (hb₁.symm.trans hn.back)
    have hv := h.valueAt_straight hplain hn hlt.le hlt'
    refine ⟨_, hv, c.insert (i + 1) b _, (h.insert hn hlt.le hlt'.le _).build_eq, fun x => ?_⟩
    obtain ⟨hfront, hback⟩ := h.neighbours_insert hn b (line b₀ b₁ v₀ v₁ b)
    have hsame := (h.insert hn hlt.le hlt'.le _).valueAt_without hfront hback
      (.straight hplain hlt hlt' rfl) x
    rw [insert_without] at hsame
    obtain ⟨y, hy⟩ := h.exists_valueAt (fun s _ _ => ⟨s, by rw [eased, hplain]⟩) x
    exact ⟨y, hy, hsame.symm.trans hy⟩

/-- The middle one of three keyframes at a jump, deleted from an eased curve; and a keyframe put on
the first piece of a curve, whose slope counts in front of it too. -/
theorem redundant_keyframes_change_nothing_jumping :
    (∃ c c' : Curve ℚ, build [0, 10, 10, 10, 20] [1, 2, 7, 4, 6] (.known .clamp) (.known .extend)
        (some Easing.smoothStep.apply) = .ok c ∧
      build [0, 10, 10, 20] [1, 2, 4, 6] (.known .clamp) (.known .extend)
        (some Easing.smoothStep.apply) = .ok c' ∧ ∀ x, c'.valueAt x = c.valueAt x) ∧
    ∃ c c' : Curve ℚ, build [0, 10, 20] [0, 5, -15] (.known .extend) (.known .clamp) none = .ok c ∧
      build [0, 4, 10, 20] [0, 2, 5, -15] (.known .extend) (.known .clamp) none = .ok c' ∧
        c.valueAt (-2) = .ok (-1) ∧ c'.valueAt (-2) = .ok (-1) := by
  constructor
  · have hordered : IsOrdered { breakpoints := [0, 10, 10, 10, 20], values := [1, 2, 7, 4, 6]
                                after := .extend, easing := some Easing.smoothStep.apply } :=
      ⟨rfl, by decide, by norm_num⟩
    have hbuild := hordered.build_eq
    obtain ⟨c', hc', hsame⟩ :=
      (redundant_keyframes_change_nothing _ _ _ _ _ _ hbuild).1 1 10 rfl rfl rfl
    exact ⟨_, c', hbuild, hc', hsame⟩
  · have hordered : IsOrdered { breakpoints := [0, 10, 20], values := [0, 5, -15]
                                before := .extend } := ⟨rfl, by decide, by norm_num⟩
    have hbuild := hordered.build_eq
    obtain ⟨v, hv, c', hc', hsame⟩ := (redundant_keyframes_change_nothing _ _ _ _ _ _ hbuild).2 rfl
      0 0 4 10 rfl rfl (by norm_num) (by norm_num)
    have hfour : valueAt (α := ℚ) { breakpoints := [0, 10, 20], values := [0, 5, -15]
                                    before := .extend } 4 = .ok 2 := by
      decide +kernel
    have hfront : valueAt (α := ℚ) { breakpoints := [0, 10, 20], values := [0, 5, -15]
                                     before := .extend } (-2) = .ok (-1) := by
      decide +kernel
    obtain rfl := Except.ok.inj (hv.symm.trans hfour)
    obtain ⟨y, hy, hy'⟩ := hsame (-2)
    obtain rfl := Except.ok.inj (hy.symm.trans hfront)
    exact ⟨_, c', hbuild, hc', hfront, hy'⟩

end Curve

end Showreel
