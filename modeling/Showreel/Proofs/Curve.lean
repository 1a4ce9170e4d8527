import Showreel.Curve
import Showreel.Proofs.Arith.Whole
import Showreel.Proofs.Document.Within
import Showreel.Proofs.Number.Unordered

/-!
# Curves through whole breakpoints

A curve is evaluated by comparing its place with the breakpoints and dividing the way from one
breakpoint by the way to the next. Where breakpoints are integers in order, the division is only
ever made between two that differ, so at a whole frame the curve has a value.
-/

namespace Showreel

open Arith (ofInt)

theorem Document.beq_ofInt (m n : Int) : ((ofInt m : Document) == ofInt n) = decide (m = n) := by
  change (some (compare m n) == some Ordering.eq) = _
  by_cases h : m = n
  · simp [h]
  · have hne : compare m n ≠ .eq := mt Int.compare_eq_eq.mp h
    rw [decide_eq_false h, Option.some_beq_some, beq_eq_false_iff_ne.mpr hne]

/-- Integers in order, with as many values that are not too large. -/
structure Keyframes (frames : List Int) (values : List Document) : Prop where
  sorted : frames.Pairwise (· ≤ ·)
  counts : frames.length = values.length
  two : 2 ≤ frames.length
  within : ∀ v ∈ values, v.IsWithin 63

namespace Keyframes

/-- Keyframes with whole values. -/
theorem ofInts {frames values : List Int} (sorted : frames.Pairwise (· ≤ ·))
    (counts : frames.length = values.length) (two : 2 ≤ frames.length)
    (within : ∀ n ∈ values, n.natAbs < 2 ^ 63) :
    Keyframes frames (values.map ofInt) where
  sorted := sorted
  counts := by rwa [List.length_map]
  two := two
  within := List.forall_mem_map.mpr fun n hn => .int (within n hn)

variable {frames : List Int} {values : List Document}

/-- The curve through keyframes that is held at its ends. -/
def held (frames : List Int) (values : List Document) : Curve Document :=
  { breakpoints := frames.map ofInt, values }

theorem entryAt_breakpoints {i : Nat} (hi : i < frames.length) :
    entryAt (held frames values).breakpoints i = .ok (ofInt frames[i]) := by
  rw [entryAt_eq_ok_iff, held, List.getElem?_map, List.getElem?_eq_getElem hi]
  rfl

theorem decreases_eq {frames : List Int} (hsorted : frames.Pairwise (· ≤ ·)) :
    Curve.decreases (frames.map ofInt : List Document) = .ok false := by
  induction frames with
  | nil => rfl
  | cons n frames ih =>
    cases frames with
    | nil => rfl
    | cons n' frames =>
      obtain ⟨hle, hrest⟩ := List.pairwise_cons.mp hsorted
      have hn : ¬ n' < n := not_lt.mpr (hle n' List.mem_cons_self)
      simp only [List.map_cons] at ih ⊢
      rw [Curve.decreases, Arith.Whole.lt_ofInt, ok_bind, if_neg (by simpa using hn)]
      exact ih hrest

section Evaluation

variable (h : Keyframes frames values)

include h

theorem entryAt_values {i : Nat} (hi : i < frames.length) :
    ∃ v, entryAt (held frames values).values i = .ok v ∧ v.IsWithin 63 := by
  have hi' : i < values.length := h.counts ▸ hi
  exact ⟨values[i], entryAt_eq_ok_iff.mpr (List.getElem?_eq_getElem hi'),
    h.within _ (List.getElem_mem hi')⟩

theorem exists_beyond (frame last : Document) :
    ∃ x, (held frames values).beyond frame last = .ok (.double x) := by
  have htwo := h.two
  obtain ⟨v, hv, hwithin⟩ := h.entryAt_values (i := frames.length - 1) (by omega)
  have hlength : (held frames values).breakpoints.length = frames.length := List.length_map _
  obtain ⟨x, hx⟩ := (hwithin.mono (by decide)).exists_widen
  refine ⟨x, ?_⟩
  unfold Curve.beyond
  dsimp only
  rw [hlength, hv, ok_bind]
  exact hx

theorem exists_ahead (frame first : Document) :
    ∃ x, (held frames values).ahead frame first = .ok (.double x) := by
  have htwo := h.two
  obtain ⟨v, hv, hwithin⟩ := h.entryAt_values (i := 0) (by omega)
  obtain ⟨x, hx⟩ := (hwithin.mono (by decide)).exists_widen
  refine ⟨x, ?_⟩
  unfold Curve.ahead
  rw [hv, ok_bind]
  exact hx

/-- Between two breakpoints the way is divided by a larger one. -/
theorem exists_within {i : Nat} (hi : i + 1 < frames.length) {f : Int} (hlow : frames[i] ≤ f)
    (hhigh : f < frames[i + 1]) :
    ∃ x, (held frames values).within i (ofInt f) = .ok (.double x) := by
  obtain ⟨v₀, hv₀, hwithin₀⟩ := h.entryAt_values (i := i) (by omega)
  obtain ⟨v₁, hv₁, hwithin₁⟩ := h.entryAt_values hi
  obtain ⟨progress, hprogress⟩ :=
    Document.exists_div_int (m := f - frames[i]) (n := frames[i + 1] - frames[i]) (by omega)
      (by omega)
  obtain ⟨rise, hrise, hwithin⟩ := hwithin₁.exists_sub hwithin₀
  obtain ⟨way, hway⟩ := hwithin.exists_mul progress
  obtain ⟨x, hx⟩ := (hwithin₀.mono (by decide)).exists_add way
  refine ⟨x, ?_⟩
  have hne : ((ofInt frames[i + 1] : Document) == ofInt frames[i]) = false := by
    rw [Document.beq_ofInt]
    exact decide_eq_false (by omega)
  have hdiv : Arith.div (ofInt (f - frames[i])) (ofInt (frames[i + 1] - frames[i])) =
      .ok (Document.double progress) := hprogress
  unfold Curve.within
  rw [entryAt_breakpoints (by omega), ok_bind, entryAt_breakpoints hi, ok_bind, hv₀, ok_bind,
    hv₁, ok_bind, hne, if_neg Bool.false_ne_true, Arith.Whole.sub_ofInt, ok_bind,
    Arith.Whole.sub_ofInt, ok_bind, hdiv, ok_bind]
  change (Arith.sub v₁ v₀ >>= fun rise => Arith.mul rise (.double progress) >>= Arith.add v₀) = _
  rw [hrise, ok_bind, hway, ok_bind, hx]

/-- The breakpoints up to a frame are counted by halving. -/
theorem exists_countUpTo (f : Int) :
    ∃ k ≤ frames.length, Arith.countUpTo (held frames values).breakpoints (ofInt f) = .ok k ∧
      ∀ (i : Nat) (hi : i < frames.length), f < frames[i] ↔ k ≤ i := by
  have hlength : (held frames values).breakpoints.length = frames.length := List.length_map _
  have hlt : ∀ (i : Nat) (b : Document), (held frames values).breakpoints[i]? = some b →
      Arith.lt (ofInt f) b = .ok (decide (∀ hi : i < frames.length, f < frames[i])) := by
    intro i b hb
    rw [held, List.getElem?_map, Option.map_eq_some_iff] at hb
    obtain ⟨n, hn, rfl⟩ := hb
    obtain ⟨hi, rfl⟩ := List.getElem?_eq_some_iff.mp hn
    rw [Arith.Whole.lt_ofInt]
    simp [hi]
  have hmono : ∀ i j, i ≤ j → (∀ hi : i < frames.length, f < frames[i]) →
      ∀ hj : j < frames.length, f < frames[j] := by
    intro i j hij habove hj
    have hle := h.sorted.rel_get_of_le (a := ⟨i, by omega⟩) (b := ⟨j, hj⟩) hij
    exact (habove (by omega)).trans_le hle
  obtain ⟨k, hk, hcount, hiff⟩ := Arith.countUpTo_eq hlt hmono
  rw [hlength] at hk hiff
  refine ⟨k, hk, hcount, fun i hi => ?_⟩
  rw [← hiff i hi, forall_prop_of_true hi]

theorem exists_valueAt (f : Int) :
    ∃ x, (held frames values).valueAt (ofInt f) = .ok (.double x) := by
  have htwo := h.two
  have hlength : (held frames values).breakpoints.length = frames.length := List.length_map _
  unfold Curve.valueAt
  rw [hlength, entryAt_breakpoints (by omega), ok_bind, Arith.Whole.le_ofInt, ok_bind,
    entryAt_breakpoints (by omega), ok_bind, Arith.Whole.lt_ofInt, ok_bind]
  split
  case isTrue => exact h.exists_beyond _ _
  case isFalse hlast =>
    split
    case isTrue => exact h.exists_ahead _ _
    case isFalse hfirst =>
      simp only [decide_eq_true_eq, not_le, not_lt] at hlast hfirst
      obtain ⟨k, hk, hcount, hiff⟩ := h.exists_countUpTo f
      have hpos : ¬ k ≤ 0 := mt (hiff 0 (by omega)).mpr (not_lt.mpr hfirst)
      have hend := (hiff (frames.length - 1) (by omega)).mp hlast
      have hstretch : k - 1 + 1 < frames.length := by omega
      have hlow : frames[k - 1] ≤ f := not_lt.mp (mt (hiff (k - 1) (by omega)).mp (by omega))
      have hhigh : f < frames[k - 1 + 1] := (hiff (k - 1 + 1) hstretch).mpr (by omega)
      rw [hcount, ok_bind]
      exact h.exists_within hstretch hlow hhigh

theorem build_eq : Curve.build (frames.map ofInt) values (.known .clamp) (.known .clamp) none =
    .ok (held frames values) := by
  have htwo := h.two
  unfold Curve.build
  rw [List.length_map, if_neg (not_not.mpr h.counts), if_neg (by omega), decreases_eq h.sorted]
  rfl

/-- A curve through keyframes has a value at every whole frame. -/
theorem exists_ramp (f : Int) :
    ∃ x, ramp (ofInt f) (frames.map ofInt) values = .ok (.double x) := by
  unfold ramp interpolate
  rw [h.build_eq, ok_bind]
  exact h.exists_valueAt f

/-- A curve that is held at its ends shows the same at all frames on one side of it. -/
theorem ramp_congr {f g : Int}
    (hside : (∀ n ∈ frames, n ≤ f ∧ n ≤ g) ∨ ∀ n ∈ frames, f < n ∧ g < n) :
    ramp (ofInt f) (frames.map ofInt) values = ramp (ofInt g) (frames.map ofInt) values := by
  have htwo := h.two
  have hlength : (held frames values).breakpoints.length = frames.length := List.length_map _
  have hlast : frames[frames.length - 1] ∈ frames := List.getElem_mem _
  have hfirst : frames[0] ∈ frames := List.getElem_mem _
  unfold ramp interpolate
  rw [h.build_eq, ok_bind, ok_bind]
  unfold Curve.valueAt
  rw [hlength, entryAt_breakpoints (by omega), ok_bind, ok_bind, Arith.Whole.le_ofInt,
    Arith.Whole.le_ofInt, ok_bind, ok_bind, entryAt_breakpoints (by omega), ok_bind, ok_bind,
    Arith.Whole.lt_ofInt, Arith.Whole.lt_ofInt, ok_bind, ok_bind]
  rcases hside with hside | hside
  · have hpast := hside _ hlast
    rw [if_pos (decide_eq_true hpast.1), if_pos (decide_eq_true hpast.2)]
    rfl
  · have hlast' := hside _ hlast
    have hahead := hside _ hfirst
    rw [if_neg (by simpa using hlast'.1), if_pos (decide_eq_true hahead.1),
      if_neg (by simpa using hlast'.2), if_pos (decide_eq_true hahead.2)]
    rfl

end Evaluation

end Keyframes

/-! ## Curves at the progress of a spring -/

namespace Document

/-- Everything that is not too large can be divided by it. -/
def Divides (gap : Document) : Prop :=
  ∀ v : Document, v.IsWithin 64 → ∃ x, Arith.div v gap = .ok (.double x)

theorem divides_double {gap : Float} (h : (gap == 0.0) = false) :
    (Document.double gap).Divides := by
  intro v hv
  cases hv with
  | @int n hn =>
    obtain ⟨x, hx⟩ := Number.exists_doubleOfInt hn
    refine ⟨x / gap, ?_⟩
    change Number.document <$> (Number.doubleOfInt n >>= fun x =>
      Number.quotientOfDoubles x gap >>= fun y => _) = _
    rw [hx, ok_bind, Number.quotientOfDoubles, h]
    rfl
  | double x =>
    refine ⟨x / gap, ?_⟩
    change Number.document <$> (Number.quotientOfDoubles x gap >>= fun y => _) = _
    rw [Number.quotientOfDoubles, h]
    rfl

theorem divides_one : (ofInt 1 : Document).Divides := by
  intro v hv
  cases hv with
  | @int n hn =>
    obtain ⟨x, hx, -⟩ := Number.exists_quotientOfInts (show n.natAbs < (1 : Int).natAbs * 2 ^ 64 by
      simpa using hn)
    refine ⟨x, ?_⟩
    change Number.document <$> Number.quotientOfInts n 1 = _
    rw [hx]
    rfl
  | double x => exact ⟨x / 1.0, rfl⟩

end Document

/-- Two breakpoints between which a curve can be drawn. -/
structure Stretch (b₀ b₁ : Document) : Prop where
  within : b₀.IsWithin 63
  ne : (b₁ == b₀) = false
  gap : ∃ gap, Arith.sub b₁ b₀ = .ok gap ∧ gap.Divides

section Progress

variable {b₀ b₁ v₀ v₁ : Document} (h : Stretch b₀ b₁) (hv₀ : v₀.IsWithin 63) (hv₁ : v₁.IsWithin 63)
  (p : Float)

include h hv₀ hv₁

theorem Stretch.exists_extended :
    ∃ x, Curve.extended (.double p) b₀ b₁ v₀ v₁ = .ok (.double x) := by
  obtain ⟨rise, hrise, hwithin⟩ := hv₁.exists_sub hv₀
  obtain ⟨gap, hgap, hdivides⟩ := h.gap
  obtain ⟨slope, hslope⟩ := hdivides rise hwithin
  obtain ⟨way, hway⟩ := (h.within.mono (by decide)).exists_double_sub p
  obtain ⟨x, hx⟩ := (hv₀.mono (by decide)).exists_add (slope * way)
  have hmul : Arith.mul (Document.double slope) (.double way) = .ok (.double (slope * way)) := rfl
  refine ⟨x, ?_⟩
  unfold Curve.extended
  rw [h.ne, if_neg Bool.false_ne_true, hrise, ok_bind, hgap, ok_bind, hslope, ok_bind, hway,
    ok_bind, hmul, ok_bind, hx]

theorem Stretch.exists_within {c : Curve Document} {i : Nat} (heasing : c.easing = none)
    (hb₀ : entryAt c.breakpoints i = .ok b₀) (hb₁ : entryAt c.breakpoints (i + 1) = .ok b₁)
    (hv₀' : entryAt c.values i = .ok v₀) (hv₁' : entryAt c.values (i + 1) = .ok v₁) :
    ∃ x, c.within i (.double p) = .ok (.double x) := by
  obtain ⟨rise, hrise, hwithin⟩ := hv₁.exists_sub hv₀
  obtain ⟨gap, hgap, hdivides⟩ := h.gap
  obtain ⟨way, hway⟩ := (h.within.mono (by decide)).exists_double_sub p
  obtain ⟨progress, hprogress⟩ := hdivides _ (.double way)
  obtain ⟨climb, hclimb⟩ := hwithin.exists_mul progress
  obtain ⟨x, hx⟩ := (hv₀.mono (by decide)).exists_add climb
  refine ⟨x, ?_⟩
  unfold Curve.within
  rw [hb₀, ok_bind, hb₁, ok_bind, hv₀', ok_bind, hv₁', ok_bind, h.ne, if_neg Bool.false_ne_true,
    hway, ok_bind, hgap, ok_bind, hprogress, ok_bind, heasing]
  change (Arith.sub v₁ v₀ >>= fun rise => Arith.mul rise (.double progress) >>= Arith.add v₀) = _
  rw [hrise, ok_bind, hclimb, ok_bind, hx]

end Progress

theorem stretch_unit : Stretch (ofInt 0) (ofInt 1) :=
  ⟨.int (by decide), by rfl, _, rfl, Document.divides_one⟩

theorem stretch_low : Stretch (ofInt 0) 0.5 :=
  ⟨.int (by decide), by rfl, _, rfl, Document.divides_double (by rfl)⟩

theorem stretch_high : Stretch 0.5 (ofInt 1) :=
  ⟨.double _, by rfl, _, rfl, Document.divides_double (by rfl)⟩

section Ramps

variable {v₀ v₁ : Document} (hv₀ : v₀.IsWithin 63) (hv₁ : v₁.IsWithin 63) {p : Float}

include hv₀ hv₁

/-- A curve over the unit interval takes every progress that is a number. -/
theorem exists_rampOnward (hp : Double.parts p ≠ .nan) :
    ∃ x, rampOnward (.double p) [ofInt 0, ofInt 1] [v₀, v₁] = .ok (.double x) := by
  let c : Curve Document :=
    { breakpoints := [ofInt 0, ofInt 1], values := [v₀, v₁], after := .extend }
  have hbuild : Curve.build [ofInt 0, ofInt 1] [v₀, v₁] (.known .clamp) (.known .extend) none =
      .ok c := rfl
  have hfirst : entryAt c.breakpoints 0 = .ok (ofInt 0) := rfl
  have hlast : entryAt c.breakpoints (c.breakpoints.length - 1) = .ok (ofInt 1) := rfl
  have hle : Arith.le (ofInt 1) (Document.double p) = .ok ((Number.int 1).le (.double p)) := rfl
  have hlt : ∀ n : Int, Arith.lt (Document.double p) (ofInt n) =
      .ok ((Number.double p).lt (.int n)) := fun _ => rfl
  obtain ⟨x₁, hx₁⟩ := (hv₁.mono (show 63 ≤ 64 by decide)).exists_widen
  unfold rampOnward interpolate
  rw [hbuild, ok_bind]
  unfold Curve.valueAt
  rw [hlast, ok_bind, hle, ok_bind, hfirst, ok_bind, hlt, ok_bind]
  split
  case isTrue =>
    change ∃ x, (Arith.lt (ofInt 1) (Document.double p) >>= fun above =>
      if above then Curve.extended (.double p) (ofInt 0) (ofInt 1) v₀ v₁ else Arith.widen v₁) =
        .ok (.double x)
    cases habove : Arith.lt (ofInt 1) (Document.double p) with
    | error fault => cases habove
    | ok above =>
      cases above with
      | false => exact ⟨x₁, hx₁⟩
      | true => exact stretch_unit.exists_extended hv₀ hv₁ p
  case isFalse hnot =>
    have hone : (Number.double p).lt (.int 1) = true :=
      (Number.ordered (Number.not_isNan_int 1) (mt Number.isNan_double_iff.mp hp)).1.mp
        (by simpa using hnot)
    split
    case isTrue =>
      exact (hv₀.mono (show 63 ≤ 64 by decide)).exists_widen
    case isFalse hzero =>
      have hcount : Arith.countUpTo c.breakpoints (Document.double p) = .ok 1 := by
        change Arith.upperBound [ofInt 0, ofInt 1] (Document.double p) 2 0 2 = _
        simp [Arith.upperBound, hlt, hone, hzero]
      rw [hcount, ok_bind]
      exact stretch_unit.exists_within hv₀ hv₁ p rfl rfl rfl rfl rfl

omit hv₀ hv₁ in
theorem countUpTo_three {x b₀ b₁ b₂ : Document} {below : Bool}
    (h₀ : Arith.lt x b₀ = .ok false) (h₁ : Arith.lt x b₁ = .ok below)
    (h₂ : Arith.lt x b₂ = .ok true) :
    Arith.countUpTo [b₀, b₁, b₂] x = .ok (if below then 1 else 2) := by
  change Arith.upperBound [b₀, b₁, b₂] x 3 0 3 = _
  cases below <;> simp [Arith.upperBound, h₀, h₁, h₂]

/-- A curve in two stretches over the unit interval takes every progress that is a number. -/
theorem exists_valueAt_through {b v₂ : Document} {c : Curve Document}
    (hc : c = { breakpoints := [ofInt 0, b, ofInt 1], values := [v₀, v₁, v₂]
                before := .extend, after := .extend })
    (hlow : Stretch (ofInt 0) b) (hhigh : Stretch b (ofInt 1)) (hv₂ : v₂.IsWithin 63)
    {below : Bool} (hb : Arith.lt (Document.double p) b = .ok below)
    (hp : Double.parts p ≠ .nan) : ∃ x, c.valueAt (.double p) = .ok (.double x) := by
  have hfirst : entryAt c.breakpoints 0 = .ok (ofInt 0) := by rw [hc]; rfl
  have hlast : entryAt c.breakpoints (c.breakpoints.length - 1) = .ok (ofInt 1) := by rw [hc]; rfl
  have hle : Arith.le (ofInt 1) (Document.double p) = .ok ((Number.int 1).le (.double p)) := rfl
  have hlt : ∀ n : Int, Arith.lt (Document.double p) (ofInt n) =
      .ok ((Number.double p).lt (.int n)) := fun _ => rfl
  have hgt : Arith.lt (ofInt 1) (Document.double p) = .ok ((Number.int 1).lt (.double p)) := rfl
  unfold Curve.valueAt
  rw [hlast, ok_bind, hle, ok_bind, hfirst, ok_bind, hlt, ok_bind]
  split
  case isTrue =>
    have hbeyond : c.beyond (.double p) (ofInt 1) =
        Arith.lt (ofInt 1) (Document.double p) >>= fun above =>
          if above then Curve.extended (.double p) b (ofInt 1) v₁ v₂ else Arith.widen v₂ := by
      rw [hc]
      rfl
    rw [hbeyond, hgt, ok_bind]
    split
    · exact hhigh.exists_extended hv₁ hv₂ p
    · exact (hv₂.mono (by decide)).exists_widen
  case isFalse hnot =>
    have hone : (Number.double p).lt (.int 1) = true :=
      (Number.ordered (Number.not_isNan_int 1) (mt Number.isNan_double_iff.mp hp)).1.mp
        (by simpa using hnot)
    split
    case isTrue =>
      have hahead : c.ahead (.double p) (ofInt 0) =
          Curve.extended (.double p) (ofInt 0) b v₀ v₁ := by
        rw [hc]
        rfl
      rw [hahead]
      exact hlow.exists_extended hv₀ hv₁ p
    case isFalse hzero =>
      have hbelow : Arith.lt (Document.double p) (ofInt 0) = .ok false :=
        (hlt 0).trans (congrArg Except.ok (by simpa using hzero))
      have habove : Arith.lt (Document.double p) (ofInt 1) = .ok true :=
        (hlt 1).trans (congrArg Except.ok hone)
      have hcount : Arith.countUpTo c.breakpoints (.double p) = .ok (if below then 1 else 2) := by
        rw [hc]
        exact countUpTo_three hbelow hb habove
      rw [hcount, ok_bind]
      cases below with
      | true =>
        refine hlow.exists_within hv₀ hv₁ p ?_ ?_ ?_ ?_ ?_
        all_goals (subst hc; rfl)
      | false =>
        refine hhigh.exists_within hv₁ hv₂ p ?_ ?_ ?_ ?_ ?_
        all_goals (subst hc; rfl)

end Ramps

/-- A bump over the unit interval takes every progress that is a number. -/
theorem exists_rampThrough {p : Float} (hp : Double.parts p ≠ .nan) :
    ∃ x, rampThrough (Document.double p) [ofInt 0, 0.5, ofInt 1] [ofInt 1, 1.15, ofInt 1] =
      .ok (.double x) := by
  have hbuild : Curve.build [ofInt 0, 0.5, ofInt 1] [ofInt 1, 1.15, ofInt 1] (.known .extend)
      (.known .extend) none = .ok ({
        breakpoints := [ofInt 0, 0.5, ofInt 1], values := [ofInt 1, 1.15, ofInt 1]
        before := .extend, after := .extend } : Curve Document) := rfl
  unfold rampThrough interpolate
  rw [hbuild, ok_bind]
  exact exists_valueAt_through (.int (by decide)) (.double _) rfl stretch_low stretch_high
    (.int (by decide)) rfl hp

section NotANumber

variable {p : Float} (hp : Double.parts p = .nan)

include hp

theorem Document.IsWithin.lt_nan {b : Document} {bits : Nat} (hb : b.IsWithin bits) :
    Arith.lt (.double p) b = .ok false := by
  have hnan := Number.isNan_double_iff.mpr hp
  cases hb with
  | int hn => exact congrArg Except.ok (Number.unordered (.inl hnan)).2
  | double x => exact congrArg Except.ok (Number.unordered (.inl hnan)).2

theorem Document.IsWithin.le_nan {b : Document} {bits : Nat} (hb : b.IsWithin bits) :
    Arith.le b (.double p) = .ok false := by
  have hnan := Number.isNan_double_iff.mpr hp
  cases hb with
  | int hn => exact congrArg Except.ok (Number.unordered (.inr hnan)).1
  | double x => exact congrArg Except.ok (Number.unordered (.inr hnan)).1

/-- What is no number is in front of no breakpoint, and none stands behind the last one. -/
theorem Curve.valueAt_nan {c : Curve Document} (hne : c.breakpoints ≠ [])
    (hwithin : ∀ b ∈ c.breakpoints, b.IsWithin 63) :
    c.valueAt (.double p) = .error .noSuchIndex := by
  have hpos : 0 < c.breakpoints.length := List.length_pos_iff.mpr hne
  have hentry : ∀ (i : Nat) (hi : i < c.breakpoints.length),
      entryAt c.breakpoints i = .ok c.breakpoints[i] := fun i hi =>
    entryAt_eq_ok_iff.mpr (List.getElem?_eq_getElem hi)
  have hlt : ∀ (i : Nat) (b : Document), c.breakpoints[i]? = some b →
      Arith.lt (.double p) b = .ok (decide False) := fun i b hb =>
    (hwithin b (List.mem_of_getElem? hb)).lt_nan hp
  obtain ⟨k, hk, hcount, hiff⟩ := Arith.countUpTo_eq hlt fun _ _ _ => id
  obtain rfl : k = c.breakpoints.length := by
    by_contra hlt'
    exact (hiff k (by omega)).mpr le_rfl
  have hbehind : entryAt c.breakpoints (c.breakpoints.length - 1 + 1) =
      .error .noSuchIndex := by
    rw [entryAt, List.getElem?_eq_none (by omega)]
  unfold Curve.valueAt
  rw [hentry _ (by omega), ok_bind, (hwithin _ (List.getElem_mem _)).le_nan hp, ok_bind,
    if_neg Bool.false_ne_true, hentry 0 hpos, ok_bind, (hwithin _ (List.getElem_mem _)).lt_nan hp,
    ok_bind, if_neg Bool.false_ne_true, hcount, ok_bind]
  unfold Curve.within
  rw [hentry _ (by omega), ok_bind, hbehind, error_bind]

theorem rampOnward_nan (v₀ v₁ : Document) :
    rampOnward (.double p) [ofInt 0, ofInt 1] [v₀, v₁] = .error .noSuchIndex := by
  have hbuild : Curve.build [ofInt 0, ofInt 1] [v₀, v₁] (.known .clamp) (.known .extend) none =
      .ok { breakpoints := [ofInt 0, ofInt 1], values := [v₀, v₁], after := .extend } := rfl
  unfold rampOnward interpolate
  rw [hbuild, ok_bind]
  refine Curve.valueAt_nan hp (by simp) ?_
  simp only [List.forall_mem_cons]
  exact ⟨.int (by decide), .int (by decide), by simp⟩

theorem rampThrough_nan (v₀ v₁ v₂ : Document) :
    rampThrough (.double p) [ofInt 0, 0.5, ofInt 1] [v₀, v₁, v₂] = .error .noSuchIndex := by
  have hbuild : Curve.build [ofInt 0, 0.5, ofInt 1] [v₀, v₁, v₂] (.known .extend) (.known .extend)
      none = .ok { breakpoints := [ofInt 0, 0.5, ofInt 1], values := [v₀, v₁, v₂]
                   before := .extend, after := .extend } := rfl
  unfold rampThrough interpolate
  rw [hbuild, ok_bind]
  refine Curve.valueAt_nan hp (by simp) ?_
  simp only [List.forall_mem_cons]
  exact ⟨.int (by decide), .double _, .int (by decide), by simp⟩

end NotANumber

end Showreel
