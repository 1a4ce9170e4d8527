import Showreel.Proofs.Curve.Linear
import Showreel.Proofs.Document.Faults

/-!
# Refused curves

A curve is refused when it is made, for keyframes or policies that fit no curve, and for nothing
else: what happens at a place may fail, but it rejects nothing any more. The message about
breakpoints that fall quotes them all, so where one of them cannot be written the curve fails
without a rejection.
-/

namespace Showreel

open Arith

/-- The way to go on beyond an end that a value asks for. -/
def Extrapolation.asked (v : Document) : Choice Extrapolation := Choice.ofDocument ofName? v

/-! ## Number systems that reject nothing -/

/-- Calculating and comparing may fail, but nothing is rejected on the way. -/
class Arith.NeverRejects (α : Type) [Arith α] : Prop where
  lt : ∀ x y : α, RejectsNothing (lt x y)
  le : ∀ x y : α, RejectsNothing (le x y)
  widen : ∀ x : α, RejectsNothing (widen x)
  add : ∀ x y : α, RejectsNothing (add x y)
  sub : ∀ x y : α, RejectsNothing (sub x y)
  mul : ∀ x y : α, RejectsNothing (mul x y)
  div : ∀ x y : α, RejectsNothing (div x y)
  power : ∀ (x : α) (n : Nat), RejectsNothing (power x n)
  quoted : ∀ x : α, RejectsNothing (quoted x)

instance : Arith.NeverRejects Document where
  lt := Document.rejectsFor_lt
  le := Document.rejectsFor_le
  widen := Document.rejectsFor_widen
  add := Document.rejectsFor_add
  sub := Document.rejectsFor_sub
  mul := Document.rejectsFor_mul
  div := Document.rejectsFor_div
  power := Document.rejectsFor_power
  quoted := Document.rejectsFor_quoted

instance : Arith.NeverRejects ℚ where
  lt _ _ := .ok _
  le _ _ := .ok _
  widen _ := .ok _
  add _ _ := .ok _
  sub _ _ := .ok _
  mul _ _ := .ok _
  div _ _ := .ite (.error (by simp)) (.ok _)
  power _ _ := .ok _
  quoted _ := .ok _

namespace Easing

variable {α : Type} [Arith α] [NeverRejects α]

theorem rejectsNothing_saturate (x : α) : RejectsNothing (saturate x) := by
  unfold saturate least greatest
  refine RejectsFor.bind ?_ fun y => (NeverRejects.lt _ _).bind fun _ => .ite (.ok _) (.ok _)
  exact (NeverRejects.lt _ _).bind fun _ => .ite (.ok _) (.ok _)

theorem rejectsNothing_decelerate (n : Nat) (t : α) : RejectsNothing (decelerate n t) := by
  unfold decelerate
  refine (NeverRejects.sub _ _).bind fun rest => (NeverRejects.power _ _).bind fun raised => ?_
  exact NeverRejects.sub _ _

theorem rejectsNothing_accelerateDecelerate (t : α) : RejectsNothing (accelerateDecelerate t) := by
  unfold accelerateDecelerate
  refine (NeverRejects.lt _ _).bind fun _ => .ite ?_ ?_
  · refine (NeverRejects.mul _ _).bind fun scaled => (NeverRejects.mul _ _).bind fun squared => ?_
    exact NeverRejects.mul _ _
  · refine (NeverRejects.mul _ _).bind fun doubled => (NeverRejects.add _ _).bind fun mirrored => ?_
    refine (NeverRejects.power _ _).bind fun cubed => (NeverRejects.div _ _).bind fun half => ?_
    exact NeverRejects.sub _ _

theorem rejectsNothing_bounceArc (t centre lift : α) : RejectsNothing (bounceArc t centre lift) := by
  unfold bounceArc
  refine (NeverRejects.div _ _).bind fun middle => (NeverRejects.sub _ _).bind fun away => ?_
  refine (NeverRejects.mul _ _).bind fun scaled => (NeverRejects.mul _ _).bind fun squared => ?_
  exact NeverRejects.add _ _

theorem rejectsNothing_bounce (t : α) : RejectsNothing (bounce t) := by
  unfold bounce
  refine (NeverRejects.div _ _).bind fun first => (NeverRejects.lt _ _).bind fun _ => .ite ?_ ?_
  · exact (NeverRejects.mul _ _).bind fun scaled => NeverRejects.mul _ _
  refine (NeverRejects.div _ _).bind fun second => (NeverRejects.lt _ _).bind fun _ => .ite ?_ ?_
  · exact rejectsNothing_bounceArc _ _ _
  refine (NeverRejects.div _ _).bind fun third => (NeverRejects.lt _ _).bind fun _ => ?_
  exact .ite (rejectsNothing_bounceArc _ _ _) (rejectsNothing_bounceArc _ _ _)

theorem rejectsNothing_hermite (t : α) : RejectsNothing (hermite t) := by
  unfold hermite
  refine (NeverRejects.mul _ _).bind fun squared => (NeverRejects.mul _ _).bind fun doubled => ?_
  exact (NeverRejects.sub _ _).bind fun slope => NeverRejects.mul _ _

/-- No easing rejects anything. -/
theorem rejectsNothing_apply (e : Easing) (x : α) : RejectsNothing (e.apply x) := by
  refine (rejectsNothing_saturate x).bind fun t => ?_
  cases e with
  | linear => exact .ok t
  | easeOutCubic => exact rejectsNothing_decelerate 3 t
  | easeInOutCubic => exact rejectsNothing_accelerateDecelerate t
  | easeOutQuad => exact rejectsNothing_decelerate 2 t
  | easeOutBounce => exact rejectsNothing_bounce t
  | smoothStep => exact rejectsNothing_hermite t

end Easing

namespace Curve

variable {α : Type} [Arith α] {bs vs : List α} {before after : Document}
  {easing : Option (α → Except Fault α)}

/-! ## Keyframe sets -/

/-- Some breakpoint is strictly below the one in front of it. -/
def Falls (bs : List α) : Prop :=
  ∃ i a b, bs[i]? = some a ∧ bs[i + 1]? = some b ∧ lt b a = .ok true

/-- Any two of the breakpoints can be compared. -/
def Comparable (bs : List α) : Prop := ∀ a ∈ bs, ∀ b ∈ bs, ∃ below, lt a b = .ok below

/-- Breakpoints, a number of values and two policies make a keyframe set. -/
structure Accepts (bs : List α) (count : Nat) (before after : Document) : Prop where
  counts : bs.length = count
  two : 2 ≤ bs.length
  ordered : ¬ Falls bs
  before : ∃ p : Extrapolation, before = p.label
  after : ∃ p : Extrapolation, after = p.label

/-- An integer in breakpoints that fall, or else in the first unknown policy, has too many digits to
be written into a message. -/
inductive Unwritten (bs : List α) (before after : Document) : Prop
  | falling (falls : Falls bs) (unwritten : ∃ b ∈ bs, ¬ ∃ text, quoted b = .ok text)
  | before (ordered : ¬ Falls bs) (unknown : ¬ ∃ p : Extrapolation, before = p.label)
      (unwritten : ¬ ∃ text, before.shown = .ok text)
  | after (ordered : ¬ Falls bs) (known : ∃ p : Extrapolation, before = p.label)
      (unknown : ¬ ∃ p : Extrapolation, after = p.label)
      (unwritten : ¬ ∃ text, after.shown = .ok text)

/-- The mistake of what is no keyframe set cannot be told. -/
structure Untold (bs : List α) (count : Nat) (before after : Document) : Prop where
  counts : bs.length = count
  two : 2 ≤ bs.length
  unwritten : Unwritten bs before after

theorem falls_cons_cons {a b : α} {rest : List α} :
    Falls (a :: b :: rest) ↔ lt b a = .ok true ∨ Falls (b :: rest) := by
  constructor
  · rintro ⟨i, x, y, hx, hy, hlt⟩
    cases i with
    | zero =>
      cases hx
      cases hy
      exact .inl hlt
    | succ i => exact .inr ⟨i, x, y, hx, hy, hlt⟩
  · rintro (hlt | ⟨i, x, y, hx, hy, hlt⟩)
    · exact ⟨0, a, b, rfl, rfl, hlt⟩
    · exact ⟨i + 1, x, y, hx, hy, hlt⟩

theorem not_falls_of_length_le (h : bs.length ≤ 1) : ¬ Falls bs := by
  rintro ⟨i, a, b, -, hb, -⟩
  have := (List.getElem?_eq_some_iff.mp hb).1
  omega

/-- Breakpoints that can be compared are found to fall or not to fall. -/
theorem exists_decreases (h : Comparable bs) :
    ∃ found, decreases bs = .ok found ∧ (found = true ↔ Falls bs) := by
  induction bs with
  | nil => exact ⟨false, rfl, iff_of_false Bool.false_ne_true (not_falls_of_length_le (by simp))⟩
  | cons a rest ih =>
    cases rest with
    | nil => exact ⟨false, rfl, iff_of_false Bool.false_ne_true (not_falls_of_length_le (by simp))⟩
    | cons b rest =>
      obtain ⟨found, hfound, hiff⟩ := ih fun x hx y hy =>
        h x (List.mem_cons_of_mem _ hx) y (List.mem_cons_of_mem _ hy)
      obtain ⟨below, hbelow⟩ := h b (by simp) a (by simp)
      rw [decreases, hbelow, ok_bind, falls_cons_cons, hbelow]
      cases below with
      | true => exact ⟨true, rfl, by simp⟩
      | false => exact ⟨found, hfound, by simp [hiff]⟩

theorem asked_label (p : Extrapolation) : Extrapolation.asked p.label = .known p :=
  Extrapolation.ofDocument_eq_known_iff.mpr rfl

theorem asked_unknown {v : Document} (h : ¬ ∃ p : Extrapolation, v = p.label) :
    Extrapolation.asked v = .unknown v := by
  cases v with
  | text s =>
    have hasked : Extrapolation.asked (.text s) =
        (Extrapolation.ofName? s).elim (.unknown (.text s)) .known := rfl
    cases hs : Extrapolation.ofName? s with
    | none => rw [hasked, hs, Option.elim_none]
    | some p =>
      rw [hs, Option.elim_some] at hasked
      exact absurd ⟨p, Extrapolation.ofDocument_eq_known_iff.mp hasked⟩ h
  | _ => rfl

/-- An unknown policy is refused unless it cannot be written into the message. -/
theorem rejected_policy_iff {v : Document} (h : ¬ ∃ p : Extrapolation, v = p.label) {β : Type}
    (rest : Extrapolation → Except Fault β) :
    Rejected (policy (Extrapolation.asked v) >>= rest) ↔ ∃ text, v.shown = .ok text := by
  have hstops : ∀ text : String, (reject (.unknownExtrapolation text) >>= rest) =
      reject (.unknownExtrapolation text) := fun _ => rfl
  rw [asked_unknown h, policy, bind_assoc]
  simp only [hstops]
  exact rejected_bind_reject_iff v.rejectsFor_shown

section Refusal

variable (hcounts : bs.length = vs.length) (htwo : 2 ≤ bs.length)

include hcounts htwo

theorem rejected_decreasing_iff [NeverRejects α] (hfalls : Falls bs) {β : Type} :
    Rejected (bs.mapM quoted >>= fun texts =>
        (reject (.decreasingBreakpoints texts) : Except Fault β)) ↔
      ¬ Accepts bs vs.length before after ∧ ¬ Untold bs vs.length before after := by
  rw [rejected_bind_reject_iff (.mapM fun b _ => NeverRejects.quoted b), exists_mapM_eq_ok_iff,
    and_iff_right fun h => h.ordered hfalls]
  constructor
  · rintro hall ⟨-, -, hunwritten⟩
    cases hunwritten with
    | falling _ unwritten =>
      obtain ⟨b, hb, hstuck⟩ := unwritten
      exact hstuck (hall b hb)
    | before ordered => exact ordered hfalls
    | after ordered => exact ordered hfalls
  · intro h b hb
    by_contra hstuck
    exact h ⟨hcounts, htwo, .falling hfalls ⟨b, hb, hstuck⟩⟩

theorem rejected_policies_iff (hordered : ¬ Falls bs) {β : Type}
    (f : Extrapolation → Extrapolation → β) :
    Rejected (policy (Extrapolation.asked before) >>= fun p =>
        policy (Extrapolation.asked after) >>= fun q => .ok (f p q)) ↔
      ¬ Accepts bs vs.length before after ∧ ¬ Untold bs vs.length before after := by
  by_cases hbefore : ∃ p : Extrapolation, before = p.label
  case neg =>
    rw [rejected_policy_iff hbefore, and_iff_right fun h => hbefore h.before]
    constructor
    · rintro hshown ⟨-, -, hunwritten⟩
      cases hunwritten with
      | falling falls => exact hordered falls
      | before _ _ unwritten => exact unwritten hshown
      | after _ known => exact hbefore known
    · exact fun h => by_contra fun hstuck => h ⟨hcounts, htwo, .before hordered hbefore hstuck⟩
  obtain ⟨p, rfl⟩ := hbefore
  rw [asked_label, policy, ok_bind]
  by_cases hafter : ∃ q : Extrapolation, after = q.label
  case neg =>
    rw [rejected_policy_iff hafter, and_iff_right fun h => hafter h.after]
    constructor
    · rintro hshown ⟨-, -, hunwritten⟩
      cases hunwritten with
      | falling falls => exact hordered falls
      | before _ unknown => exact unknown ⟨p, rfl⟩
      | after _ _ _ unwritten => exact unwritten hshown
    · exact fun h => by_contra fun hstuck =>
        h ⟨hcounts, htwo, .after hordered ⟨p, rfl⟩ hafter hstuck⟩
  obtain ⟨q, rfl⟩ := hafter
  rw [asked_label, policy, ok_bind]
  exact iff_of_false (not_rejected_ok _) fun h => h.1 ⟨hcounts, htwo, hordered, ⟨p, rfl⟩, q, rfl⟩

end Refusal

/-- A keyframe set is refused exactly if it is none, unless its mistake cannot be told. -/
theorem rejected_build_iff [NeverRejects α] (hcomparable : Comparable bs) :
    Rejected (build bs vs (Extrapolation.asked before) (Extrapolation.asked after) easing) ↔
      ¬ Accepts bs vs.length before after ∧ ¬ Untold bs vs.length before after := by
  unfold build
  by_cases hcounts : bs.length = vs.length
  case neg =>
    rw [if_pos hcounts]
    exact iff_of_true (rejected_reject _) ⟨fun h => hcounts h.counts, fun h => hcounts h.counts⟩
  by_cases htwo : 2 ≤ bs.length
  case neg =>
    rw [if_neg (not_not.mpr hcounts), if_pos (not_le.mp htwo)]
    exact iff_of_true (rejected_reject _) ⟨fun h => htwo h.two, fun h => htwo h.two⟩
  obtain ⟨found, hfound, hfalls⟩ := exists_decreases hcomparable
  rw [if_neg (not_not.mpr hcounts), if_neg (not_lt.mpr htwo), hfound, ok_bind]
  cases found with
  | true =>
    rw [if_pos rfl]
    exact rejected_decreasing_iff hcounts htwo (hfalls.mp rfl)
  | false =>
    rw [if_neg Bool.false_ne_true]
    exact rejected_policies_iff hcounts htwo (fun h => Bool.false_ne_true (hfalls.mpr h)) _

/-! ## Values -/

/-- What a curve yields is one of its values, or one of them and a step on top. -/
def Stems (vs : List α) (y : α) : Prop :=
  ∃ v ∈ vs, widen v = .ok y ∨ ∃ step, add v step = .ok y

theorem mem_of_entryAt {β : Type} {xs : List β} {i : Nat} {x : β} (h : entryAt xs i = .ok x) :
    x ∈ xs := List.mem_of_getElem? (entryAt_eq_ok_iff.mp h)

section Values

variable [NeverRejects α]

theorem widen_yields {v : α} (hv : v ∈ vs) : Yields (Stems vs) (widen v) :=
  ⟨NeverRejects.widen v, fun _ h => ⟨v, hv, .inl h⟩⟩

theorem add_yields {v : α} (hv : v ∈ vs) (step : α) : Yields (Stems vs) (add v step) :=
  ⟨NeverRejects.add v step, fun _ h => ⟨v, hv, .inr ⟨step, h⟩⟩⟩

theorem extended_yields {v₀ v₁ : α} (hv₀ : v₀ ∈ vs) (hv₁ : v₁ ∈ vs) (frame b₀ b₁ : α) :
    Yields (Stems vs) (extended frame b₀ b₁ v₀ v₁) := by
  unfold extended
  refine .ite ?_ ?_
  · exact .bind (NeverRejects.lt _ _) fun _ _ => .ite (widen_yields hv₀) (widen_yields hv₁)
  · refine .bind (NeverRejects.sub _ _) fun rise _ => .bind (NeverRejects.sub _ _) fun run _ => ?_
    refine .bind (NeverRejects.div _ _) fun slope _ => .bind (NeverRejects.sub _ _) fun way _ => ?_
    exact .bind (NeverRejects.mul _ _) fun step _ => add_yields hv₀ step

theorem rejectsNothing_upperBound (xs : List α) (x : α) (fuel lo hi : Nat) :
    RejectsNothing (upperBound xs x fuel lo hi) := by
  induction fuel generalizing lo hi with
  | zero => exact .ok lo
  | succ fuel ih =>
    unfold upperBound
    refine .ite ?_ (.ok lo)
    dsimp only
    cases xs[(lo + hi) / 2]? with
    | none => exact .ok lo
    | some b => exact (NeverRejects.lt _ _).bind fun _ => .ite (ih _ _) (ih _ _)

variable {c : Curve α} (frame : α)

theorem within_yields (heasing : ∀ e ∈ c.easing, ∀ s, RejectsNothing (e s)) (i : Nat) :
    Yields (Stems c.values) (c.within i frame) := by
  unfold within
  refine .bind (rejectsFor_entryAt _ _) fun b₀ _ => .bind (rejectsFor_entryAt _ _) fun b₁ _ => ?_
  refine .bind (rejectsFor_entryAt _ _) fun v₀ hv₀ => ?_
  refine .bind (rejectsFor_entryAt _ _) fun v₁ hv₁ => .ite (widen_yields (mem_of_entryAt hv₁)) ?_
  refine .bind (NeverRejects.sub _ _) fun way _ => .bind (NeverRejects.sub _ _) fun run _ => ?_
  refine .bind (NeverRejects.div _ _) fun progress _ => ?_
  have hrest : ∀ eased : α, Yields (Stems c.values)
      (sub v₁ v₀ >>= fun rise => mul rise eased >>= add v₀) := fun eased =>
    .bind (NeverRejects.sub _ _) fun rise _ => .bind (NeverRejects.mul _ _) fun step _ =>
      add_yields (mem_of_entryAt hv₀) step
  dsimp only
  cases he : c.easing with
  | none => exact .bind (.ok progress) fun eased _ => hrest eased
  | some e => exact .bind (heasing e he progress) fun eased _ => hrest eased

theorem beyond_yields (last : α) : Yields (Stems c.values) (c.beyond frame last) := by
  unfold beyond
  refine .bind (rejectsFor_entryAt _ _) fun vLast hvLast => ?_
  have hheld := widen_yields (mem_of_entryAt hvLast)
  cases c.after with
  | clamp => exact hheld
  | extend =>
    refine .bind (NeverRejects.lt _ _) fun _ _ => .ite ?_ hheld
    refine .bind (rejectsFor_entryAt _ _) fun b₀ _ => ?_
    refine .bind (rejectsFor_entryAt _ _) fun v₀ hv₀ => ?_
    exact extended_yields (mem_of_entryAt hv₀) (mem_of_entryAt hvLast) _ _ _

theorem ahead_yields (first : α) : Yields (Stems c.values) (c.ahead frame first) := by
  unfold ahead
  refine .bind (rejectsFor_entryAt _ _) fun vFirst hvFirst => ?_
  cases c.before with
  | clamp => exact widen_yields (mem_of_entryAt hvFirst)
  | extend =>
    refine .bind (rejectsFor_entryAt _ _) fun b₁ _ => ?_
    refine .bind (rejectsFor_entryAt _ _) fun v₁ hv₁ => ?_
    exact extended_yields (mem_of_entryAt hvFirst) (mem_of_entryAt hv₁) _ _ _

/-- A curve may fail where its easing or its arithmetic does, but it rejects nothing any more. -/
theorem valueAt_yields (heasing : ∀ e ∈ c.easing, ∀ s, RejectsNothing (e s)) :
    Yields (Stems c.values) (c.valueAt frame) := by
  unfold valueAt
  refine .bind (rejectsFor_entryAt _ _) fun last _ => .bind (NeverRejects.le _ _) fun _ _ => ?_
  refine .ite (beyond_yields frame last) ?_
  refine .bind (rejectsFor_entryAt _ _) fun first _ => .bind (NeverRejects.lt _ _) fun _ _ => ?_
  refine .ite (ahead_yields frame first) ?_
  exact .bind (rejectsNothing_upperBound _ _ _ _ _) fun n _ => within_yields frame heasing _

end Values

theorem fields_of_build {before after : Choice Extrapolation} {c : Curve α}
    (h : build bs vs before after easing = .ok c) : c.values = vs ∧ c.easing = easing := by
  obtain ⟨-, -, -, -, -, -, hvalues, heasing⟩ := build_eq_ok_iff_decreases.mp h
  exact ⟨hvalues, heasing⟩

/-! ## Values on breakpoints -/

variable {frame : α}

theorem valueAt_yields_of_build [NeverRejects α] (heasing : ∀ e ∈ easing, ∀ s, RejectsNothing (e s))
    {before after : Choice Extrapolation} {c : Curve α}
    (hc : build bs vs before after easing = .ok c) : Yields (Stems vs) (c.valueAt frame) := by
  obtain ⟨rfl, rfl⟩ := fields_of_build hc
  exact valueAt_yields frame heasing

theorem rejected_interpolate_iff [NeverRejects α] (hcomparable : Comparable bs)
    (heasing : ∀ e ∈ easing, ∀ s, RejectsNothing (e s)) :
    Rejected (interpolate frame bs vs (Extrapolation.asked before) (Extrapolation.asked after)
        easing) ↔
      ¬ Accepts bs vs.length before after ∧ ¬ Untold bs vs.length before after := by
  rw [← rejected_build_iff hcomparable]
  exact rejected_bind_iff fun c hc => (valueAt_yields_of_build heasing hc).calm

/-- What is interpolated stems from the values that it is interpolated between. -/
theorem stems_of_interpolate [NeverRejects α] (heasing : ∀ e ∈ easing, ∀ s, RejectsNothing (e s))
    {before after : Choice Extrapolation} {y : α}
    (h : interpolate frame bs vs before after easing = .ok y) : Stems vs y := by
  obtain ⟨c, hc, hy⟩ := bind_eq_ok_iff.mp h
  exact (valueAt_yields_of_build heasing hc).sound y hy

/-! ## Exact values -/

theorem falls_rat {bs : List ℚ} : Falls bs ↔ ¬ bs.Pairwise (· ≤ ·) := by
  obtain ⟨found, hfound, hfalls⟩ := exists_decreases fun a _ b _ => ⟨_, Arith.lt_rat a b⟩
  rw [decreases_rat, Except.ok.injEq] at hfound
  rw [← hfalls, ← hfound, decide_eq_true_eq]

section Exact

variable {bs vs : List ℚ} {easing : Option (ℚ → Except Fault ℚ)} (hanswers : Answers easing)

include hanswers

theorem exists_valueAt_of_build {before after : Choice Extrapolation} {c : Curve ℚ}
    (hc : build bs vs before after easing = .ok c) (x : ℚ) : ∃ y, c.valueAt x = .ok y := by
  obtain ⟨hordered, -, -, -, -, rfl⟩ := build_eq_ok_iff.mp hc
  exact hordered.exists_valueAt (fun s hs hs' => hanswers.exists_eased hs hs') x

/-- A keyframe set has a value everywhere. -/
theorem Accepts.exists_interpolate (h : Accepts bs vs.length before after) (x : ℚ) :
    ∃ y, interpolate x bs vs (Extrapolation.asked before) (Extrapolation.asked after) easing =
      .ok y := by
  obtain ⟨p, rfl⟩ := h.before
  obtain ⟨q, rfl⟩ := h.after
  have hordered : IsOrdered { breakpoints := bs, values := vs, before := p, after := q, easing } :=
    ⟨h.counts, h.two, not_not.mp (falls_rat.not.mp h.ordered)⟩
  have hbuild := hordered.build_eq
  dsimp only at hbuild
  rw [interpolate, asked_label, asked_label, hbuild, ok_bind]
  exact exists_valueAt_of_build hanswers hbuild x

theorem rejected_interpolate_rat_iff (x : ℚ) :
    Rejected (interpolate x bs vs (Extrapolation.asked before) (Extrapolation.asked after)
      easing) ↔ ¬ Accepts bs vs.length before after ∧ ¬ Untold bs vs.length before after := by
  rw [← rejected_build_iff fun a _ b _ => ⟨_, Arith.lt_rat a b⟩]
  refine rejected_bind_iff fun c hc => ?_
  obtain ⟨y, hy⟩ := exists_valueAt_of_build hanswers hc x
  rw [hy]
  exact .ok y

end Exact

end Curve

end Showreel
