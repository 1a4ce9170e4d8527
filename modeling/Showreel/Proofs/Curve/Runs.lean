import Showreel.Proofs.Curve.Rational
import Showreel.Scene.Pointer

/-!
# Where curves run

A curve is accepted exactly if it has as many values as breakpoints, at least two of them, all in
order, and goes on beyond its ends in a known way. What it is then at a place can be told from its
keyframes alone: between the first breakpoint and the last one exactly one pair of neighbours has
the place between them, however many breakpoints are equal, and beyond the ends the edge value or
the line through the edge pair counts. Where breakpoints are equal the last one of them holds, and
so does the last one of several stops of a pointer at one frame.
-/

namespace Showreel

/-- The name under which a way to go on is asked for. -/
def Extrapolation.label : Extrapolation → Document
  | .clamp => .text "clamp"
  | .extend => .text "extend"

theorem Extrapolation.ofDocument_eq_known_iff {v : Document} {p : Extrapolation} :
    Choice.ofDocument ofName? v = .known p ↔ v = p.label := by
  cases v with
  | text s =>
    unfold Choice.ofDocument ofName?
    dsimp only
    by_cases hclamp : s = "clamp"
    · cases p <;> simp [hclamp, label]
    · by_cases hextend : s = "extend"
      · cases p <;> simp [hextend, label]
      · cases p <;> simp [hclamp, hextend, label]
  | null => cases p <;> simp [Choice.ofDocument, label]
  | flag b => cases p <;> simp [Choice.ofDocument, label]
  | int n => cases p <;> simp [Choice.ofDocument, label]
  | double x => cases p <;> simp [Choice.ofDocument, label]
  | list items => cases p <;> simp [Choice.ofDocument, label]
  | mapping entries => cases p <;> simp [Choice.ofDocument, label]

namespace Curve

/-! ## Acceptance -/

theorem policy_eq_ok_iff {choice : Choice Extrapolation} {p : Extrapolation} :
    policy choice = .ok p ↔ choice = .known p := by
  cases choice with
  | known q => simp [policy]
  | unknown label =>
    have hne : policy (.unknown label) ≠ .ok p := bind_ne_ok fun _ => reject_ne_ok
    simp [hne]

/-- A curve is made of as many values as breakpoints, at least two, none of which is found below the
one in front of it, and of policies that are known. -/
theorem build_eq_ok_iff_decreases {α : Type} [Arith α] {bs vs : List α}
    {before after : Choice Extrapolation} {easing : Option (α → Except Fault α)} {c : Curve α} :
    build bs vs before after easing = .ok c ↔
      bs.length = vs.length ∧ 2 ≤ bs.length ∧ decreases bs = .ok false ∧
        before = .known c.before ∧ after = .known c.after ∧ c.breakpoints = bs ∧ c.values = vs ∧
          c.easing = easing := by
  have htold : (bs.mapM Arith.quoted >>= fun got =>
      (reject (.decreasingBreakpoints got) : Except Fault (Curve α))) ≠ .ok c :=
    bind_ne_ok fun _ => reject_ne_ok
  simp only [build, reject_bind]
  by_cases hcounts : bs.length = vs.length
  case neg =>
    rw [if_pos hcounts]
    exact iff_of_false reject_ne_ok fun h => hcounts h.1
  by_cases htwo : 2 ≤ bs.length
  case neg =>
    rw [if_neg (not_not.mpr hcounts), if_pos (not_le.mp htwo)]
    exact iff_of_false reject_ne_ok fun h => htwo h.2.1
  rw [if_neg (not_not.mpr hcounts), if_neg (not_lt.mpr htwo), unless_eq_ok_iff htold,
    and_iff_right hcounts, and_iff_right htwo]
  simp only [bind_eq_ok_iff, policy_eq_ok_iff, pure_eq_ok, Except.ok.injEq]
  refine and_congr_right fun _ => ?_
  constructor
  · rintro ⟨p, rfl, q, rfl, rfl⟩
    exact ⟨rfl, rfl, rfl, rfl, rfl⟩
  · rintro ⟨rfl, rfl, rfl, rfl, rfl⟩
    exact ⟨_, rfl, _, rfl, rfl⟩

theorem build_eq_ok_iff {bs vs : List ℚ} {before after : Choice Extrapolation}
    {easing : Option (ℚ → Except Fault ℚ)} {c : Curve ℚ} :
    build bs vs before after easing = .ok c ↔ c.IsOrdered ∧ c.breakpoints = bs ∧ c.values = vs ∧
      before = .known c.before ∧ after = .known c.after ∧ c.easing = easing := by
  rw [build_eq_ok_iff_decreases, decreases_rat, Except.ok.injEq, decide_eq_false_iff_not, not_not]
  constructor
  · rintro ⟨hcounts, htwo, hsorted, hbefore, hafter, rfl, rfl, heasing⟩
    exact ⟨⟨hcounts, htwo, hsorted⟩, rfl, rfl, hbefore, hafter, heasing⟩
  · rintro ⟨h, rfl, rfl, hbefore, hafter, heasing⟩
    exact ⟨h.counts, h.two, h.sorted, hbefore, hafter, rfl, rfl, heasing⟩

/-! ## Places between keyframes -/

/-- A place lies between the breakpoint at a position and the next one, which it does not reach. -/
def IsAround (c : Curve ℚ) (x : ℚ) (i : Nat) : Prop :=
  ∃ b₀ b₁, c.breakpoints[i]? = some b₀ ∧ c.breakpoints[i + 1]? = some b₁ ∧ b₀ ≤ x ∧ x < b₁

/-- The position of the last keyframe at a breakpoint. -/
structure IsLastAt (bs : List ℚ) (b : ℚ) (i : Nat) : Prop where
  here : bs[i]? = some b
  behind : ∀ j, i < j → bs[j]? ≠ some b

theorem IsLastAt.unique {bs : List ℚ} {b : ℚ} {i j : Nat} (hi : IsLastAt bs b i)
    (hj : IsLastAt bs b j) : i = j := by
  have hle : j ≤ i := not_lt.mp fun hlt => hi.behind j hlt hj.here
  exact le_antisymm (not_lt.mp fun hlt => hj.behind i hlt hi.here) hle

theorem exists_isLastAt {bs : List ℚ} {b : ℚ} (hb : b ∈ bs) : ∃ i, IsLastAt bs b i := by
  obtain ⟨k, hk⟩ := List.mem_iff_getElem?.mp hb
  have hbound : ∀ j, bs[j]? = some b → j ≤ bs.length := fun j hj =>
    (List.getElem?_eq_some_iff.mp hj).1.le
  refine ⟨Nat.findGreatest (fun j => bs[j]? = some b) bs.length, ?_, fun j hj hj' => ?_⟩
  · exact Nat.findGreatest_spec (P := fun j => bs[j]? = some b) (hbound k hk) hk
  · exact absurd (Nat.le_findGreatest (hbound j hj') hj') (not_le.mpr hj)

/-- What a curve through keyframes is, told from the keyframes. -/
structure RunsThrough (c : Curve ℚ) : Prop where
  /-- Nothing can fail but the easing, at a share of the way. -/
  fault : ∀ x fault, c.valueAt x = .error fault → ∃ s, 0 ≤ s ∧ s < 1 ∧ c.eased s = .error fault
  /-- From the first breakpoint on and in front of the last one there is one pair of neighbours
  around a place. -/
  around : ∀ x first last, c.breakpoints.head? = some first → c.breakpoints.getLast? = some last →
    first ≤ x → x < last → ∃! i, c.IsAround x i
  between : ∀ i b₀ b₁ v₀ v₁ x, c.Neighbours i b₀ b₁ v₀ v₁ → b₀ ≤ x → x < b₁ →
    c.valueAt x = c.eased ((x - b₀) / (b₁ - b₀)) >>= fun y => .ok (v₀ + (v₁ - v₀) * y)
  ahead : ∀ b₀ b₁ v₀ v₁ x, c.Neighbours 0 b₀ b₁ v₀ v₁ → x < b₀ →
    c.valueAt x = .ok (if c.before = .clamp ∨ b₁ = b₀ then v₀
      else v₀ + (v₁ - v₀) / (b₁ - b₀) * (x - b₀))
  beyond : ∀ b₀ b₁ v₀ v₁ x, c.Neighbours (c.breakpoints.length - 2) b₀ b₁ v₀ v₁ → b₁ ≤ x →
    c.valueAt x = .ok (if c.after = .clamp ∨ b₁ = b₀ then v₁
      else v₀ + (v₁ - v₀) / (b₁ - b₀) * (x - b₀))
  /-- An easing that starts at zero leaves every breakpoint to the last keyframe there. -/
  last : c.eased 0 = .ok 0 → ∀ b ∈ c.breakpoints, ∃ i v, IsLastAt c.breakpoints b i ∧
    c.values[i]? = some v ∧ c.valueAt b = .ok v

namespace Neighbours

variable {c : Curve ℚ} {i : Nat} {b₀ b₁ v₀ v₁ b₀' b₁' v₀' v₁' : ℚ}

/-- The two keyframes at a position are told by it. -/
theorem unique (h : c.Neighbours i b₀ b₁ v₀ v₁) (h' : c.Neighbours i b₀' b₁' v₀' v₁') :
    b₀ = b₀' ∧ b₁ = b₁' ∧ v₀ = v₀' ∧ v₁ = v₁' :=
  ⟨Option.some.inj (h.front.symm.trans h'.front), Option.some.inj (h.back.symm.trans h'.back),
    Option.some.inj (h.frontValue.symm.trans h'.frontValue),
    Option.some.inj (h.backValue.symm.trans h'.backValue)⟩

theorem getLast?_eq (h : c.Neighbours i b₀ b₁ v₀ v₁) (hi : i + 2 = c.breakpoints.length) :
    c.breakpoints.getLast? = some b₁ := by
  have hback := h.back
  rwa [List.getLast?_eq_getElem?, show c.breakpoints.length - 1 = i + 1 by omega]

/-- In front of the first of two keyframes the line through them holds the first value if they share
a breakpoint. -/
theorem line_ahead {x : ℚ} (hx : x < b₀) : line b₀ b₁ v₀ v₁ x =
    if b₁ = b₀ then v₀ else v₀ + (v₁ - v₀) / (b₁ - b₀) * (x - b₀) := by
  rw [line, if_pos hx]

/-- From the second of two keyframes on the line through them holds the second value if they share a
breakpoint. -/
theorem line_beyond {x : ℚ} (hx : b₁ ≤ x) : line b₀ b₁ v₀ v₁ x =
    if b₁ = b₀ then v₁ else v₀ + (v₁ - v₀) / (b₁ - b₀) * (x - b₀) := by
  unfold line
  split
  case isTrue h => rw [if_neg (by rw [← h]; exact not_lt.mpr hx)]
  case isFalse => rfl

end Neighbours

namespace IsOrdered

variable {c : Curve ℚ} (h : c.IsOrdered)

include h

/-- Only one pair of neighbours has a place between them: breakpoints further on are not below the
second one of the pair. -/
theorem isAround_unique {x : ℚ} {i j : Nat} (hi : c.IsAround x i) (hj : c.IsAround x j) :
    i = j := by
  have hnot : ∀ i j, c.IsAround x i → c.IsAround x j → ¬ i < j := by
    rintro i j ⟨_, b₁, -, hb₁, -, hx⟩ ⟨b, _, hb, -, hx', -⟩ hij
    have hle : b₁ ≤ b := h.le_of_le (by omega) hb₁ hb
    linarith
  have hij := hnot i j hi hj
  have hji := hnot j i hj hi
  omega

theorem existsUnique_isAround {x first last : ℚ} (hfirst : c.breakpoints.head? = some first)
    (hlast : c.breakpoints.getLast? = some last) (hx : first ≤ x) (hx' : x < last) :
    ∃! i, c.IsAround x i := by
  obtain ⟨i, b₀, b₁, v₀, v₁, hn, hcases⟩ := h.valueAt_cases x
  have haround : b₀ ≤ x ∧ x < b₁ := by
    rcases hcases with ⟨hi, hbeyond, -⟩ | ⟨rfl, hahead, -⟩ | ⟨hlow, hhigh, -⟩
    · have heq : last = b₁ := Option.some.inj (hlast.symm.trans (hn.getLast?_eq hi))
      linarith
    · have hhead := hn.front
      rw [← List.head?_eq_getElem?, hfirst] at hhead
      cases hhead
      linarith
    · exact ⟨hlow, hhigh⟩
  exact ⟨i, ⟨b₀, b₁, hn.front, hn.back, haround⟩, fun j hj =>
    h.isAround_unique hj ⟨b₀, b₁, hn.front, hn.back, haround⟩⟩

section Neighbours

variable {i : Nat} {b₀ b₁ v₀ v₁ x : ℚ} (hn : c.Neighbours i b₀ b₁ v₀ v₁)

include hn

theorem valueAt_between (hx : b₀ ≤ x) (hx' : x < b₁) :
    c.valueAt x = c.eased ((x - b₀) / (b₁ - b₀)) >>= fun y => .ok (v₀ + (v₁ - v₀) * y) := by
  obtain ⟨j, b₀', b₁', v₀', v₁', hn', hcases⟩ := h.valueAt_cases x
  rcases hcases with ⟨hj, hbeyond, -⟩ | ⟨rfl, hahead, -⟩ | ⟨hlow, hhigh, hvalue⟩
  · -- Behind the last breakpoint there is no pair around the place.
    have hlength := (List.getElem?_eq_some_iff.mp hn.back).1
    have hle : b₁ ≤ b₁' := h.le_of_le (show i + 1 ≤ j + 1 by omega) hn.back hn'.back
    linarith
  · have hle : b₀' ≤ b₀ := h.le_of_le (Nat.zero_le i) hn'.front hn.front
    linarith
  · obtain rfl : j = i := h.isAround_unique ⟨_, _, hn'.front, hn'.back, hlow, hhigh⟩
      ⟨_, _, hn.front, hn.back, hx, hx'⟩
    obtain ⟨rfl, rfl, rfl, rfl⟩ := hn.unique hn'
    exact hvalue

theorem valueAt_ahead (hi : i = 0) (hx : x < b₀) :
    c.valueAt x = .ok (onward c.before v₀ (line b₀ b₁ v₀ v₁ x)) := by
  subst hi
  obtain ⟨j, b₀', b₁', v₀', v₁', hn', hcases⟩ := h.valueAt_cases x
  rcases hcases with ⟨-, hbeyond, -⟩ | ⟨rfl, -, hvalue⟩ | ⟨hlow, -, -⟩
  · have hle : b₀ ≤ b₁' := h.le_of_le (Nat.zero_le _) hn.front hn'.back
    linarith
  · obtain ⟨rfl, rfl, rfl, rfl⟩ := hn.unique hn'
    exact hvalue
  · have hle : b₀ ≤ b₀' := h.le_of_le (Nat.zero_le _) hn.front hn'.front
    linarith

theorem valueAt_beyond (hi : i + 2 = c.breakpoints.length) (hx : b₁ ≤ x) :
    c.valueAt x = .ok (onward c.after v₁ (line b₀ b₁ v₀ v₁ x)) := by
  obtain ⟨j, b₀', b₁', v₀', v₁', hn', hcases⟩ := h.valueAt_cases x
  have hlength := (List.getElem?_eq_some_iff.mp hn'.back).1
  rcases hcases with ⟨hj, -, hvalue⟩ | ⟨rfl, hahead, -⟩ | ⟨-, hhigh, -⟩
  · obtain rfl : j = i := by omega
    obtain ⟨rfl, rfl, rfl, rfl⟩ := hn.unique hn'
    exact hvalue
  · have hle : b₀' ≤ b₁ := h.le_of_le (Nat.zero_le _) hn'.front hn.back
    linarith
  · have hle : b₁' ≤ b₁ := h.le_of_le (by omega) hn'.back hn.back
    linarith

end Neighbours

/-- At a breakpoint the last keyframe there holds, because the way to the next one starts at zero. -/
theorem valueAt_last (heased : c.eased 0 = .ok 0) {b v : ℚ} {i : Nat}
    (hi : IsLastAt c.breakpoints b i) (hv : c.values[i]? = some v) : c.valueAt b = .ok v := by
  obtain ⟨hlt, -⟩ := List.getElem?_eq_some_iff.mp hi.here
  by_cases hend : i + 1 = c.breakpoints.length
  · have htwo := h.two
    obtain ⟨b₀, b₁, v₀, v₁, hn⟩ := h.exists_neighbours (i := i - 1) (by omega)
    obtain ⟨-, hback, -, hbackValue⟩ := id hn
    rw [show i - 1 + 1 = i by omega] at hback hbackValue
    obtain rfl : b = b₁ := Option.some.inj (hi.here.symm.trans hback)
    obtain rfl : v = v₁ := Option.some.inj (hv.symm.trans hbackValue)
    rw [h.valueAt_beyond hn (by omega) le_rfl, line_back]
    cases c.after <;> rfl
  · obtain ⟨b₀, b₁, v₀, v₁, hn⟩ := h.exists_neighbours (i := i) (by omega)
    obtain rfl : b = b₀ := Option.some.inj (hi.here.symm.trans hn.front)
    obtain rfl : v = v₀ := Option.some.inj (hv.symm.trans hn.frontValue)
    have hle : b ≤ b₁ := h.le_of_le (by omega) hn.front hn.back
    have hne : b ≠ b₁ := fun heq => hi.behind (i + 1) (by omega) (heq ▸ hn.back)
    rw [h.valueAt_between hn le_rfl (lt_of_le_of_ne hle hne), sub_self, zero_div, heased, ok_bind,
      mul_zero, add_zero]

theorem runsThrough : c.RunsThrough where
  fault x fault hfault := by
    obtain ⟨i, b₀, b₁, v₀, v₁, -, hcases⟩ := h.valueAt_cases x
    rcases hcases with ⟨-, -, hvalue⟩ | ⟨-, -, hvalue⟩ | ⟨hlow, hhigh, hvalue⟩
    · rw [hvalue] at hfault
      cases hfault
    · rw [hvalue] at hfault
      cases hfault
    · obtain ⟨hs, hs'⟩ := Neighbours.share_mem hlow hhigh
      refine ⟨_, hs, hs', ?_⟩
      rw [hvalue] at hfault
      cases heased : c.eased ((x - b₀) / (b₁ - b₀)) with
      | ok y =>
        rw [heased] at hfault
        cases hfault
      | error fault' =>
        rw [heased] at hfault
        cases hfault
        rfl
  around x first last := h.existsUnique_isAround
  between i b₀ b₁ v₀ v₁ x := h.valueAt_between
  ahead b₀ b₁ v₀ v₁ x hn hx := by
    rw [h.valueAt_ahead hn rfl hx, Neighbours.line_ahead hx]
    cases c.before <;> simp [onward]
  beyond b₀ b₁ v₀ v₁ x hn hx := by
    have htwo := h.two
    rw [h.valueAt_beyond hn (by omega) hx, Neighbours.line_beyond hx]
    cases c.after <;> simp [onward]
  last heased b hb := by
    obtain ⟨i, hi⟩ := exists_isLastAt hb
    obtain ⟨hlt, -⟩ := List.getElem?_eq_some_iff.mp hi.here
    have hv := List.getElem?_eq_getElem (l := c.values) (h.counts ▸ hlt)
    exact ⟨i, _, hi, hv, h.valueAt_last heased hi hv⟩

end IsOrdered

end Curve

/-! ## Stops of a pointer -/

namespace Waypoints

open Curve

theorem build_eq_ok_iff {stops : List (Stop ℚ)} {w : Waypoints ℚ} : build stops = .ok w ↔
    w.stops = stops.map some ∧
      coordinate (stops.map Stop.frame) (stops.map Stop.x) = .ok w.horizontal ∧
      coordinate (stops.map Stop.frame) (stops.map Stop.y) = .ok w.vertical := by
  constructor
  · intro h
    obtain ⟨horizontal, hhorizontal, h⟩ := bind_eq_ok_iff.mp h
    obtain ⟨vertical, hvertical, h⟩ := bind_eq_ok_iff.mp h
    cases h
    exact ⟨rfl, hhorizontal, hvertical⟩
  · rintro ⟨hstops, hhorizontal, hvertical⟩
    rw [build, hhorizontal, ok_bind, hvertical, ok_bind, ← hstops]
    rfl

/-- A coordinate at the frame of a stop is that of the last stop there. -/
theorem valueAt_coordinate {stops : List (Stop ℚ)} {value : Stop ℚ → ℚ} {c : Curve ℚ}
    (h : coordinate (stops.map Stop.frame) (stops.map value) = .ok c) {b : ℚ} {i : Nat}
    (hi : IsLastAt (stops.map Stop.frame) b i) {t : Stop ℚ} (ht : stops[i]? = some t) :
    c.valueAt b = .ok (value t) := by
  obtain ⟨hordered, hframes, hvalues, -, -, heasing⟩ := Curve.build_eq_ok_iff.mp h
  have heased : c.eased 0 = .ok 0 := by rw [eased, heasing]
  refine hordered.valueAt_last heased (hframes ▸ hi) ?_
  rw [hvalues, List.getElem?_map, ht, Option.map_some]

/-- At the frame of a stop the pointer is at the last stop of that frame. -/
theorem position_of_stop {stops : List (Stop ℚ)} {w : Waypoints ℚ} (h : build stops = .ok w)
    {s : Stop ℚ} (hs : s ∈ stops) : ∃ (i : Nat) (t : Stop ℚ), stops[i]? = some t ∧ t.frame = s.frame ∧
      (∀ (j : Nat) (u : Stop ℚ), i < j → stops[j]? = some u → u.frame ≠ s.frame) ∧
        w.position s.frame = .ok (t.x, t.y) := by
  obtain ⟨-, hhorizontal, hvertical⟩ := build_eq_ok_iff.mp h
  obtain ⟨i, hi⟩ := exists_isLastAt (List.mem_map_of_mem (f := Stop.frame) hs)
  obtain ⟨t, ht, hframe⟩ : ∃ t, stops[i]? = some t ∧ t.frame = s.frame := by
    have hhere := hi.here
    rwa [List.getElem?_map, Option.map_eq_some_iff] at hhere
  refine ⟨i, t, ht, hframe, fun j u hj hu hu' => hi.behind j hj ?_, ?_⟩
  · rw [List.getElem?_map, hu, Option.map_some, hu']
  · rw [position, valueAt_coordinate hhorizontal hi ht, ok_bind, valueAt_coordinate hvertical hi ht,
      ok_bind]
    rfl

end Waypoints

namespace Curve

/-- A curve is accepted exactly if it has as many values as breakpoints, at least two, its
breakpoints are in order from the first to the last, and both policies are known. It then runs
through its keyframes: no place is outside its tables or divides by zero, one pair of neighbours
tells what it is between its ends and the edge pairs what it is beyond them. At the frame of a stop
a pointer is at the last stop of that frame. -/
theorem curves_run_through_keyframes :
    (∀ (bs vs : List ℚ) (before after : Document) (easing : Option (ℚ → Except Fault ℚ)),
      ((∃ c, build bs vs (Choice.ofDocument Extrapolation.ofName? before)
          (Choice.ofDocument Extrapolation.ofName? after) easing = .ok c) ↔
        bs.length = vs.length ∧ 2 ≤ bs.length ∧ bs.Pairwise (· ≤ ·) ∧
          (∃ p : Extrapolation, before = p.label) ∧ ∃ p : Extrapolation, after = p.label) ∧
      ∀ c, build bs vs (Choice.ofDocument Extrapolation.ofName? before)
          (Choice.ofDocument Extrapolation.ofName? after) easing = .ok c →
        (c.breakpoints = bs ∧ c.values = vs ∧ before = c.before.label ∧ after = c.after.label ∧
          c.easing = easing) ∧ c.RunsThrough) ∧
    ∀ (stops : List (Stop ℚ)) (w : Waypoints ℚ), Waypoints.build stops = .ok w → ∀ s ∈ stops,
      ∃ (i : Nat) (t : Stop ℚ), stops[i]? = some t ∧ t.frame = s.frame ∧
        (∀ (j : Nat) (u : Stop ℚ), i < j → stops[j]? = some u → u.frame ≠ s.frame) ∧
          w.position s.frame = .ok (t.x, t.y) := by
  refine ⟨fun bs vs before after easing => ⟨⟨?_, ?_⟩, fun c hc => ?_⟩, fun stops w hw s hs =>
    Waypoints.position_of_stop hw hs⟩
  · rintro ⟨c, hc⟩
    obtain ⟨h, rfl, rfl, hbefore, hafter, -⟩ := build_eq_ok_iff.mp hc
    exact ⟨h.counts, h.two, h.sorted, ⟨_, Extrapolation.ofDocument_eq_known_iff.mp hbefore⟩, _,
      Extrapolation.ofDocument_eq_known_iff.mp hafter⟩
  · rintro ⟨hcounts, htwo, hsorted, ⟨p, hp⟩, q, hq⟩
    exact ⟨{ breakpoints := bs, values := vs, before := p, after := q, easing },
      build_eq_ok_iff.mpr ⟨⟨hcounts, htwo, hsorted⟩, rfl, rfl,
        Extrapolation.ofDocument_eq_known_iff.mpr hp, Extrapolation.ofDocument_eq_known_iff.mpr hq,
        rfl⟩⟩
  · obtain ⟨h, hframes, hvalues, hbefore, hafter, heasing⟩ := build_eq_ok_iff.mp hc
    exact ⟨⟨hframes, hvalues, Extrapolation.ofDocument_eq_known_iff.mp hbefore,
      Extrapolation.ofDocument_eq_known_iff.mp hafter, heasing⟩, h.runsThrough⟩

/-- A curve with two jumps, one of them in front, that bends between its keyframes and goes on
straight behind them; and a pointer that jumps at the same frame. -/
theorem curves_run_through_keyframes_jumping :
    (∃ c : Curve ℚ, build [0, 0, 10, 10, 20] [1, 2, 3, 4, 6]
        (Choice.ofDocument Extrapolation.ofName? (.text "clamp"))
        (Choice.ofDocument Extrapolation.ofName? (.text "extend")) (some Easing.smoothStep.apply) =
          .ok c ∧ c.valueAt (-3) = .ok 1 ∧ c.valueAt (5 / 2) = .ok (69 / 32) ∧
      c.valueAt 10 = .ok 4 ∧ c.valueAt 25 = .ok 7) ∧
    ∃ w : Waypoints ℚ, Waypoints.build [⟨.text "a", 0, 0, 0⟩, ⟨.text "b", 10, 5, 6⟩,
        ⟨.text "c", 10, 7, 8⟩] = .ok w ∧ w.position 10 = .ok (7, 8) := by
  obtain ⟨hcurves, hstops⟩ := curves_run_through_keyframes
  constructor
  · obtain ⟨haccepted, hruns⟩ := hcurves [0, 0, 10, 10, 20] [1, 2, 3, 4, 6] (.text "clamp")
      (.text "extend") (some Easing.smoothStep.apply)
    have hsorted : [(0 : ℚ), 0, 10, 10, 20].Pairwise (· ≤ ·) := by norm_num
    obtain ⟨c, hc⟩ := haccepted.mpr ⟨rfl, by decide, hsorted, ⟨.clamp, rfl⟩, .extend, rfl⟩
    obtain ⟨⟨hframes, hvalues, hbefore, hafter, heasing⟩, hc'⟩ := hruns c hc
    have hat : ∀ i b₀ b₁ v₀ v₁, [(0 : ℚ), 0, 10, 10, 20][i]? = some b₀ →
        [(0 : ℚ), 0, 10, 10, 20][i + 1]? = some b₁ → [(1 : ℚ), 2, 3, 4, 6][i]? = some v₀ →
        [(1 : ℚ), 2, 3, 4, 6][i + 1]? = some v₁ → c.Neighbours i b₀ b₁ v₀ v₁ := by
      intro i b₀ b₁ v₀ v₁ hb₀ hb₁ hv₀ hv₁
      exact ⟨hframes ▸ hb₀, hframes ▸ hb₁, hvalues ▸ hv₀, hvalues ▸ hv₁⟩
    refine ⟨c, hc, ?_, ?_, ?_, ?_⟩
    · rw [hc'.ahead 0 0 1 2 (-3) (hat 0 0 0 1 2 rfl rfl rfl rfl) (by norm_num), if_pos (.inr rfl)]
    · have heased : c.eased (1 / 4) = .ok (5 / 32) := by
        rw [eased, heasing]
        decide +kernel
      have hshare : ((5 / 2 - 0) / (10 - 0) : ℚ) = 1 / 4 := by norm_num
      rw [hc'.between 1 0 10 2 3 (5 / 2) (hat 1 0 10 2 3 rfl rfl rfl rfl) (by norm_num)
        (by norm_num), hshare, heased, ok_bind]
      norm_num
    · have heased : c.eased 0 = .ok 0 := by
        rw [eased, heasing]
        decide +kernel
      obtain ⟨i, v, hi, hv, hvalue⟩ := hc'.last heased 10 (by rw [hframes]; simp)
      rw [hframes] at hi
      obtain rfl : i = 3 := by
        have hlt : i < 5 := (List.getElem?_eq_some_iff.mp hi.here).1
        have hle : 3 ≤ i := not_lt.mp fun h => hi.behind 3 h rfl
        have hne : i ≠ 4 := by
          rintro rfl
          simpa using hi.here
        omega
      rw [hvalues] at hv
      cases hv
      exact hvalue
    · have hlength : c.breakpoints.length - 2 = 3 := by rw [hframes]; rfl
      have hne : ¬ (c.after = .clamp ∨ (20 : ℚ) = 10) := by
        rintro (h | h)
        · rw [h] at hafter
          simp [Extrapolation.label] at hafter
        · norm_num at h
      rw [hc'.beyond 10 20 4 6 25 (hlength ▸ hat 3 10 20 4 6 rfl rfl rfl rfl) (by norm_num),
        if_neg hne]
      norm_num
  · obtain ⟨w, hw⟩ : ∃ w : Waypoints ℚ, Waypoints.build [⟨.text "a", 0, 0, 0⟩,
        ⟨.text "b", 10, 5, 6⟩, ⟨.text "c", 10, 7, 8⟩] = .ok w := ⟨_, rfl⟩
    obtain ⟨i, t, ht, hframe, hlater, hposition⟩ :=
      hstops _ w hw ⟨.text "b", 10, 5, 6⟩ (by simp)
    refine ⟨w, hw, ?_⟩
    have hle : 2 ≤ i := not_lt.mp fun h => hlater 2 ⟨.text "c", 10, 7, 8⟩ h rfl rfl
    have hlt : i < 3 := (List.getElem?_eq_some_iff.mp ht).1
    obtain rfl : i = 2 := by omega
    cases ht
    exact hposition

end Curve

end Showreel
