import Mathlib.Data.List.Forall2
import Showreel.Fault

/-!
# Computations that may fail

A step of a computation either yields a value or stops it with a fault. These laws peel one step off
a computation, or one entry off a list of computations, and say what is left.
-/

namespace Showreel

section Steps

variable {ε α β : Type}

@[simp] theorem ok_bind (a : α) (f : α → Except ε β) : (Except.ok a >>= f) = f a := rfl

@[simp] theorem error_bind (e : ε) (f : α → Except ε β) :
    (Except.error e >>= f) = Except.error e := rfl

@[simp] theorem pure_eq_ok (a : α) : (pure a : Except ε α) = .ok a := rfl

/-- A computation yields a value exactly if its first step and then the rest of it do. -/
theorem bind_eq_ok_iff {x : Except ε α} {f : α → Except ε β} {b : β} :
    (x >>= f) = .ok b ↔ ∃ a, x = .ok a ∧ f a = .ok b := by
  cases x <;> simp

theorem exists_ok_of_isOk {x : Except ε α} (h : x.isOk) : ∃ a, x = .ok a := by
  cases x with
  | ok a => exact ⟨a, rfl⟩
  | error e => cases h

/-- What never yields a value behind a step never does so with the step. -/
theorem bind_ne_ok {x : Except ε α} {f : α → Except ε β} {b : β} (h : ∀ a, f a ≠ .ok b) :
    (x >>= f) ≠ .ok b := by
  rw [Ne, bind_eq_ok_iff]
  rintro ⟨a, -, hf⟩
  exact h a hf

/-- A computation that stops where something is found yields a value exactly if nothing is found and
the rest of it yields the value. -/
theorem unless_eq_ok_iff {found : Except ε Bool} {stop rest : Except ε β} {b : β}
    (hstop : stop ≠ .ok b) :
    (found >>= fun yes => if yes = true then stop else rest) = .ok b ↔
      found = .ok false ∧ rest = .ok b := by
  cases found with
  | error e => simp
  | ok yes => cases yes <;> simp [hstop]

/-- What comes behind both ways of a choice comes behind the choice. -/
theorem ite_bind_eq (b : Prop) [Decidable b] (x y : Except ε α) (f : α → Except ε β) :
    (if b then x >>= f else y >>= f) = ((if b then x else y) >>= f) := by
  split <;> rfl

/-- A list of computations yields exactly the values of the single ones, in order. -/
theorem mapM_eq_ok_iff {f : α → Except ε β} {xs : List α} {ys : List β} :
    xs.mapM f = .ok ys ↔ List.Forall₂ (fun x y => f x = .ok y) xs ys := by
  induction xs generalizing ys with
  | nil => cases ys <;> simp
  | cons x xs ih =>
    rw [List.mapM_cons, bind_eq_ok_iff, List.forall₂_cons_left_iff]
    constructor
    · rintro ⟨y, hy, h⟩
      obtain ⟨rest, hrest, h⟩ := bind_eq_ok_iff.mp h
      cases h
      exact ⟨y, rest, hy, ih.mp hrest, rfl⟩
    · rintro ⟨y, rest, hy, hrest, rfl⟩
      exact ⟨y, hy, bind_eq_ok_iff.mpr ⟨rest, ih.mpr hrest, rfl⟩⟩

theorem exists_of_mem_mapM {f : α → Except ε β} {xs : List α} {ys : List β}
    (h : xs.mapM f = .ok ys) {y : β} (hy : y ∈ ys) : ∃ x ∈ xs, f x = .ok y := by
  induction mapM_eq_ok_iff.mp h with
  | nil => cases hy
  | @cons x y' xs ys hx htail ih =>
    rcases List.mem_cons.mp hy with rfl | hy
    · exact ⟨x, List.mem_cons_self, hx⟩
    · obtain ⟨x', hx', hf⟩ := ih (mapM_eq_ok_iff.mpr htail) hy
      exact ⟨x', List.mem_cons_of_mem _ hx', hf⟩

/-- A list of computations yields values exactly if every single one does. -/
theorem exists_mapM_eq_ok_iff {f : α → Except ε β} {xs : List α} :
    (∃ ys, xs.mapM f = .ok ys) ↔ ∀ x ∈ xs, ∃ y, f x = .ok y := by
  induction xs with
  | nil => simp
  | cons x xs ih =>
    rw [List.forall_mem_cons, ← ih, List.mapM_cons]
    constructor
    · rintro ⟨ys, h⟩
      obtain ⟨y, hy, h⟩ := bind_eq_ok_iff.mp h
      obtain ⟨rest, hrest, _⟩ := bind_eq_ok_iff.mp h
      exact ⟨⟨y, hy⟩, rest, hrest⟩
    · rintro ⟨⟨y, hy⟩, rest, hrest⟩
      exact ⟨y :: rest, by simp [hy, hrest]⟩

/-- Two steps for each entry yield what the second steps do behind all the first ones. -/
theorem mapM_bind_eq_ok_iff {γ : Type} {f : α → Except ε β} {g : β → Except ε γ} {xs : List α}
    {zs : List γ} : xs.mapM (fun x => f x >>= g) = .ok zs ↔
      ∃ ys, xs.mapM f = .ok ys ∧ ys.mapM g = .ok zs := by
  simp only [mapM_eq_ok_iff, bind_eq_ok_iff]
  constructor
  · intro h
    induction h with
    | nil => exact ⟨[], .nil, .nil⟩
    | cons hhead _ ih =>
      obtain ⟨y, hy, hz⟩ := hhead
      obtain ⟨ys, hys, hzs⟩ := ih
      exact ⟨y :: ys, .cons hy hys, .cons hz hzs⟩
  · rintro ⟨ys, hys, hzs⟩
    induction hys generalizing zs with
    | nil =>
      cases hzs
      exact .nil
    | cons hy _ ih =>
      cases hzs with
      | cons hz hzs => exact .cons ⟨_, hy, hz⟩ (ih hzs)

theorem mapM_congr {f g : α → Except ε β} {xs : List α} (h : ∀ x ∈ xs, f x = g x) :
    xs.mapM f = xs.mapM g := by
  induction xs with
  | nil => rfl
  | cons x xs ih =>
    rw [List.forall_mem_cons] at h
    rw [List.mapM_cons, List.mapM_cons, h.1, ih h.2]

/-- A list of computations is stopped by the first of them that fails. -/
theorem mapM_eq_error_iff {f : α → Except ε β} {xs : List α} {e : ε} : xs.mapM f = .error e ↔
    ∃ front x back ys, xs = front ++ x :: back ∧ front.mapM f = .ok ys ∧ f x = .error e := by
  constructor
  · intro h
    induction xs with
    | nil => cases h
    | cons x xs ih =>
      cases hx : f x with
      | error e' =>
        rw [List.mapM_cons, hx] at h
        cases h
        exact ⟨[], x, xs, [], rfl, rfl, hx⟩
      | ok y =>
        rw [List.mapM_cons, hx, ok_bind] at h
        cases hrest : xs.mapM f with
        | error e' =>
          rw [hrest] at h
          cases h
          obtain ⟨front, x', back, ys, rfl, hfront, hx'⟩ := ih hrest
          exact ⟨x :: front, x', back, y :: ys, rfl, by rw [List.mapM_cons, hx, hfront]; rfl, hx'⟩
        | ok ys =>
          rw [hrest] at h
          cases h
  · rintro ⟨front, x, back, ys, rfl, hfront, hx⟩
    rw [List.mapM_append, hfront, ok_bind, List.mapM_cons, hx]
    rfl

/-- One value comes from each number below a bound, at its position. -/
theorem mapM_range_eq_ok_iff {f : Nat → Except ε β} {n : Nat} {ys : List β} :
    (List.range n).mapM f = .ok ys ↔
      ys.length = n ∧ ∀ i < n, ∃ y, ys[i]? = some y ∧ f i = .ok y := by
  rw [mapM_eq_ok_iff, List.forall₂_iff_get]
  constructor
  · rintro ⟨hlength, hall⟩
    rw [List.length_range] at hlength
    refine ⟨hlength.symm, fun i hi => ?_⟩
    have hy : i < ys.length := by omega
    have hvalue := hall i (by rwa [List.length_range]) hy
    rw [List.get_eq_getElem, List.getElem_range] at hvalue
    exact ⟨_, List.getElem?_eq_getElem hy, hvalue⟩
  · rintro ⟨rfl, hall⟩
    refine ⟨List.length_range, fun i _ hy => ?_⟩
    obtain ⟨y, hi, hvalue⟩ := hall i hy
    rw [List.getElem?_eq_getElem hy, Option.some.injEq] at hi
    rw [List.get_eq_getElem, List.get_eq_getElem, List.getElem_range, hi, hvalue]

/-- The numbers below a bound are gone through in order, up to the first that fails. -/
theorem exists_of_mapM_range_eq_error {f : Nat → Except ε β} {n : Nat} {e : ε}
    (h : (List.range n).mapM f = .error e) :
    ∃ i < n, f i = .error e ∧ ∀ j < i, ∃ y, f j = .ok y := by
  obtain ⟨front, i, back, ys, hrange, hfront, hi⟩ := mapM_eq_error_iff.mp h
  have hlength := congrArg List.length hrange
  rw [List.length_range, List.length_append, List.length_cons] at hlength
  have hentry : ∀ j < n, (front ++ i :: back)[j]? = some j := fun j hj => by
    rw [← hrange, List.getElem?_range hj]
  obtain rfl : i = front.length := by simpa using hentry front.length (by omega)
  refine ⟨_, by omega, hi, fun j hj => ?_⟩
  have hbefore := hentry j (by omega)
  rw [List.getElem?_append_left hj] at hbefore
  exact exists_mapM_eq_ok_iff.mp ⟨ys, hfront⟩ j (List.mem_of_getElem? hbefore)

end Steps

@[simp] theorem reject_bind {β γ : Type} (cause : Rejection) (f : β → Except Fault γ) :
    (reject cause >>= f) = reject cause := rfl

theorem reject_ne_ok {β : Type} {cause : Rejection} {b : β} :
    (reject cause : Except Fault β) ≠ .ok b := nofun

/-! ## Computations that only reject -/

/-- Nothing but a rejection stops the computation. -/
def OnlyRejects {α : Type} (x : Except Fault α) : Prop :=
  ∀ fault, x = .error fault → ∃ cause, fault = .rejected cause

namespace OnlyRejects

variable {α β : Type}

theorem ok (a : α) : OnlyRejects (.ok a) := nofun

theorem reject (cause : Rejection) : OnlyRejects (reject cause : Except Fault α) := by
  intro fault h
  cases h
  exact ⟨cause, rfl⟩

theorem bind {x : Except Fault α} {f : α → Except Fault β} (hx : OnlyRejects x)
    (hf : ∀ a, x = .ok a → OnlyRejects (f a)) : OnlyRejects (x >>= f) := by
  cases x with
  | ok a => exact hf a rfl
  | error fault =>
    obtain ⟨cause, rfl⟩ := hx fault rfl
    exact reject cause

theorem of_exists_ok {x : Except Fault α} (h : ∃ a, x = .ok a) : OnlyRejects x := by
  obtain ⟨a, rfl⟩ := h
  exact ok a

theorem ite {b : Prop} [Decidable b] {x y : Except Fault α} (hx : b → OnlyRejects x)
    (hy : ¬ b → OnlyRejects y) : OnlyRejects (if b then x else y) := by
  split
  case isTrue h => exact hx h
  case isFalse h => exact hy h

theorem mapM {f : α → Except Fault β} {xs : List α} (h : ∀ x ∈ xs, OnlyRejects (f x)) :
    OnlyRejects (xs.mapM f) := by
  induction xs with
  | nil => exact ok []
  | cons x xs ih =>
    rw [List.mapM_cons]
    refine (h x List.mem_cons_self).bind fun y _ => ?_
    exact (ih fun x' hx' => h x' (List.mem_cons_of_mem _ hx')).bind fun ys _ => ok (y :: ys)

theorem exists_rejected {x : Except Fault α} (hx : OnlyRejects x) (hok : ¬ ∃ a, x = .ok a) :
    ∃ cause, x = .error (.rejected cause) := by
  cases x with
  | ok a => exact absurd ⟨a, rfl⟩ hok
  | error fault =>
    obtain ⟨cause, rfl⟩ := hx fault rfl
    exact ⟨cause, rfl⟩

end OnlyRejects

/-! ## Computations that reject for some causes -/

/-- The computation rejects nothing for a cause of another kind; it may also stop with a fault that
is no rejection. -/
def RejectsFor {α : Type} (p : Rejection → Prop) (x : Except Fault α) : Prop :=
  ∀ cause, x = .error (.rejected cause) → p cause

namespace RejectsFor

variable {α β : Type} {p : Rejection → Prop}

theorem ok (a : α) : RejectsFor p (.ok a) := nofun

theorem error {fault : Fault} (h : ∀ cause, fault ≠ .rejected cause) :
    RejectsFor p (.error fault : Except Fault α) :=
  fun cause heq => absurd (Except.error.inj heq) (h cause)

theorem reject {cause : Rejection} (h : p cause) :
    RejectsFor p (reject cause : Except Fault α) := by
  intro cause' heq
  cases heq
  exact h

theorem bind {x : Except Fault α} {f : α → Except Fault β} (hx : RejectsFor p x)
    (hf : ∀ a, RejectsFor p (f a)) : RejectsFor p (x >>= f) := by
  cases x with
  | ok a => exact hf a
  | error fault =>
    intro cause heq
    cases heq
    exact hx cause rfl

theorem ite {b : Prop} [Decidable b] {x y : Except Fault α} (hx : RejectsFor p x)
    (hy : RejectsFor p y) : RejectsFor p (if b then x else y) := by
  split
  · exact hx
  · exact hy

theorem map {x : Except Fault α} (h : RejectsFor p x) (f : α → β) : RejectsFor p (f <$> x) := by
  cases x with
  | ok a => exact ok (f a)
  | error fault =>
    intro cause hcause
    exact h cause (congrArg Except.error (Except.error.inj hcause))

theorem foldlM {f : β → α → Except Fault β} (h : ∀ b a, RejectsFor p (f b a)) (xs : List α)
    (b : β) : RejectsFor p (xs.foldlM f b) := by
  induction xs generalizing b with
  | nil => exact ok b
  | cons x xs ih =>
    rw [List.foldlM_cons]
    exact (h b x).bind ih

theorem mapM {f : α → Except Fault β} {xs : List α} (h : ∀ x ∈ xs, RejectsFor p (f x)) :
    RejectsFor p (xs.mapM f) := by
  induction xs with
  | nil => exact ok []
  | cons x xs ih =>
    rw [List.forall_mem_cons] at h
    rw [List.mapM_cons]
    exact h.1.bind fun y => (ih h.2).bind fun ys => ok (y :: ys)

end RejectsFor

/-- What stops the computation is a rejection. -/
def Rejected {α : Type} (x : Except Fault α) : Prop := ∃ cause, x = .error (.rejected cause)

/-- The computation may fail, but it rejects nothing. -/
abbrev RejectsNothing {α : Type} (x : Except Fault α) : Prop := RejectsFor (fun _ => False) x

section Rejections

variable {α β : Type}

theorem rejectsNothing_iff {x : Except Fault α} : RejectsNothing x ↔ ¬ Rejected x := by
  rw [Rejected, not_exists]
  rfl

theorem Rejected.bind {x : Except Fault α} (hx : Rejected x) (f : α → Except Fault β) :
    Rejected (x >>= f) := by
  obtain ⟨cause, rfl⟩ := hx
  exact ⟨cause, rfl⟩

theorem not_rejected_ok (a : α) : ¬ Rejected (.ok a) := by
  rintro ⟨cause, h⟩
  cases h

theorem rejected_reject (cause : Rejection) : Rejected (reject cause : Except Fault α) :=
  ⟨cause, rfl⟩

/-- Where nothing is rejected behind a step, the rejections are those of the step. -/
theorem rejected_bind_iff {x : Except Fault α} {f : α → Except Fault β}
    (hf : ∀ a, x = .ok a → RejectsNothing (f a)) : Rejected (x >>= f) ↔ Rejected x := by
  cases x with
  | ok a => exact iff_of_false (rejectsNothing_iff.mp (hf a rfl)) (not_rejected_ok a)
  | error fault =>
    constructor
    · rintro ⟨cause, hcause⟩
      cases hcause
      exact ⟨cause, rfl⟩
    · rintro ⟨cause, hcause⟩
      cases hcause
      exact ⟨cause, rfl⟩

/-- What is rejected with the value of a step is rejected unless the step fails. -/
theorem rejected_bind_reject_iff {x : Except Fault α} {cause : α → Rejection}
    (hx : RejectsNothing x) :
    Rejected (x >>= fun a => (reject (cause a) : Except Fault β)) ↔ ∃ a, x = .ok a := by
  cases x with
  | ok a => exact iff_of_true (rejected_reject _) ⟨a, rfl⟩
  | error fault =>
    refine iff_of_false ?_ nofun
    rintro ⟨cause', hcause'⟩
    cases hcause'
    exact hx cause' rfl

/-- Computations that reject under one and the same condition do so one after the other. -/
theorem rejected_mapM_iff {f : α → Except Fault β} {xs : List α} {q : Prop}
    (h : ∀ x ∈ xs, (Rejected (f x) ↔ q)) : Rejected (xs.mapM f) ↔ xs ≠ [] ∧ q := by
  by_cases hq : q
  · cases xs with
    | nil => exact iff_of_false (not_rejected_ok _) fun hne => hne.1 rfl
    | cons x xs =>
      obtain ⟨cause, hcause⟩ := (h x List.mem_cons_self).mpr hq
      rw [List.mapM_cons, hcause]
      exact iff_of_true ⟨cause, rfl⟩ ⟨List.cons_ne_nil _ _, hq⟩
  · have hall : RejectsNothing (xs.mapM f) := .mapM fun x hx =>
      rejectsNothing_iff.mpr ((h x hx).not.mpr hq)
    exact iff_of_false (rejectsNothing_iff.mp hall) fun hne => hq hne.2

end Rejections

/-- The computation rejects nothing, and what it yields has a property. -/
structure Yields {α : Type} (p : α → Prop) (x : Except Fault α) : Prop where
  calm : RejectsNothing x
  sound : ∀ a, x = .ok a → p a

namespace Yields

variable {α β : Type} {p : β → Prop}

theorem bind {x : Except Fault α} {f : α → Except Fault β} (hx : RejectsNothing x)
    (hf : ∀ a, x = .ok a → Yields p (f a)) : Yields p (x >>= f) := by
  cases x with
  | ok a => exact hf a rfl
  | error fault => exact ⟨fun cause h => hx cause (by cases h; rfl), nofun⟩

theorem ite {b : Prop} [Decidable b] {x y : Except Fault β} (hx : Yields p x) (hy : Yields p y) :
    Yields p (if b then x else y) := by
  split
  · exact hx
  · exact hy

end Yields

/-! ## Computations that ensure something -/

/-- Whatever the computation yields has a property, and it yields something as long as what it needs
is given. -/
structure Ensures {α : Type} (needs : Prop) (p : α → Prop) (x : Except Fault α) : Prop where
  sound : ∀ a, x = .ok a → p a
  total : needs → ∃ a, x = .ok a

namespace Ensures

variable {α β : Type} {needs : Prop} {p : α → Prop} {q : β → Prop}

theorem ok {a : α} (h : p a) : Ensures needs p (.ok a) := by
  refine ⟨fun b hb => ?_, fun _ => ⟨a, rfl⟩⟩
  cases hb
  exact h

theorem of_exists {x : Except Fault α} (h : ∃ a, x = .ok a ∧ p a) : Ensures needs p x := by
  obtain ⟨a, rfl, ha⟩ := h
  exact ok ha

/-- Any value will do behind a step about whose value nothing has to be known. -/
theorem of_exists_ok {x : Except Fault α} (h : ∃ a, x = .ok a) :
    Ensures needs (fun _ => True) x := by
  obtain ⟨a, rfl⟩ := h
  exact ok trivial

theorem bind {x : Except Fault α} {f : α → Except Fault β} (hx : Ensures needs p x)
    (hf : ∀ a, p a → Ensures needs q (f a)) : Ensures needs q (x >>= f) := by
  cases x with
  | ok a => exact hf a (hx.sound a rfl)
  | error fault =>
    refine ⟨nofun, fun hneeds => ?_⟩
    obtain ⟨a, ha⟩ := hx.total hneeds
    cases ha

theorem ite {b : Prop} [Decidable b] {x y : Except Fault α} (hx : Ensures needs p x)
    (hy : Ensures needs p y) : Ensures needs p (if b then x else y) := by
  split
  · exact hx
  · exact hy

/-- A choice between two steps with the same rest behind them. -/
theorem choice_bind {b : Prop} [Decidable b] {x y : Except Fault α} {f : α → Except Fault β}
    (hx : Ensures needs p x) (hy : Ensures needs p y) (hf : ∀ a, p a → Ensures needs q (f a)) :
    Ensures needs q (if b then x >>= f else y >>= f) :=
  .ite (hx.bind hf) (hy.bind hf)

theorem mapM {f : α → Except Fault β} {xs : List α} (h : ∀ x ∈ xs, Ensures needs q (f x)) :
    Ensures needs (fun ys => ∀ y ∈ ys, q y) (xs.mapM f) := by
  induction xs with
  | nil => exact ok nofun
  | cons x xs ih =>
    rw [List.forall_mem_cons] at h
    rw [List.mapM_cons]
    refine h.1.bind fun y hy => ?_
    exact (ih h.2).bind fun ys hys => ok (List.forall_mem_cons.mpr ⟨hy, hys⟩)

end Ensures

/-! ## Computations that agree -/

/-- Two computations stop with the same fault or yield values that are related. -/
inductive Agree {α β : Type} (R : α → β → Prop) : Except Fault α → Except Fault β → Prop
  | ok {a : α} {b : β} (h : R a b) : Agree R (.ok a) (.ok b)
  | error (fault : Fault) : Agree R (.error fault) (.error fault)

namespace Agree

variable {α β γ δ : Type} {R : α → β → Prop} {S : γ → δ → Prop}

theorem mono {R' : α → β → Prop} {x : Except Fault α} {y : Except Fault β} (h : Agree R x y)
    (hR : ∀ a b, R a b → R' a b) : Agree R' x y := by
  cases h with
  | ok h => exact ok (hR _ _ h)
  | error fault => exact error fault

theorem bind {x : Except Fault α} {y : Except Fault β} {f : α → Except Fault γ}
    {g : β → Except Fault δ} (h : Agree R x y) (hf : ∀ a b, R a b → Agree S (f a) (g b)) :
    Agree S (x >>= f) (y >>= g) := by
  cases h with
  | ok h => exact hf _ _ h
  | error fault => exact error fault

/-- Computations that begin with the same step agree if they agree behind it. -/
theorem same_bind {x : Except Fault α} {f : α → Except Fault γ} {g : α → Except Fault δ}
    (h : ∀ a, Agree S (f a) (g a)) : Agree S (x >>= f) (x >>= g) := by
  cases x with
  | ok a => exact h a
  | error fault => exact error fault

theorem ite {b : Prop} [Decidable b] {x x' : Except Fault α} {y y' : Except Fault β}
    (h : Agree R x y) (h' : Agree R x' y') :
    Agree R (if b then x else x') (if b then y else y') := by
  split
  · exact h
  · exact h'

theorem mapM {f : α → Except Fault γ} {g : β → Except Fault δ} {xs : List α} {ys : List β}
    (h : List.Forall₂ (fun a b => Agree S (f a) (g b)) xs ys) :
    Agree (List.Forall₂ S) (xs.mapM f) (ys.mapM g) := by
  induction h with
  | nil => exact ok .nil
  | cons hhead _ ih =>
    rw [List.mapM_cons, List.mapM_cons]
    exact hhead.bind fun _ _ hvalue => ih.bind fun _ _ hrest => ok (.cons hvalue hrest)

theorem exists_ok {x : Except Fault α} {y : Except Fault β} (h : Agree R x y) {a : α}
    (hx : x = .ok a) : ∃ b, y = .ok b ∧ R a b := by
  cases h with
  | ok h =>
    cases hx
    exact ⟨_, rfl, h⟩
  | error fault => cases hx

end Agree

/-! ## Computations that ask questions -/

/-- The computation yields a value exactly if every question that it asks is answered, and what
stops it is what stops one of them. -/
structure AsksFor {β γ : Type} (questions : List (Except Fault γ)) (x : Except Fault β) : Prop where
  exists_iff : (∃ b, x = .ok b) ↔ ∀ q ∈ questions, ∃ v, q = .ok v
  fault : ∀ fault, x = .error fault → .error fault ∈ questions

namespace AsksFor

variable {α β γ : Type} {qs qs' : List (Except Fault γ)}

theorem of_exists_ok {x : Except Fault β} (h : ∃ b, x = .ok b) : AsksFor (γ := γ) [] x := by
  obtain ⟨b, rfl⟩ := h
  exact ⟨by simp, nofun⟩

theorem ok (b : β) : AsksFor (γ := γ) [] (.ok b) := of_exists_ok ⟨b, rfl⟩

/-- A question asks for itself. -/
theorem self (q : Except Fault γ) : AsksFor [q] q :=
  ⟨by simp, fun fault h => by simp [h]⟩

theorem congr {x : Except Fault β} (h : AsksFor qs x) (hqs : ∀ q, q ∈ qs ↔ q ∈ qs') :
    AsksFor qs' x :=
  ⟨by simp only [← hqs, h.exists_iff], fun fault hx => (hqs _).mp (h.fault fault hx)⟩

theorem swap {x : Except Fault β} {q q' : Except Fault γ} (h : AsksFor (q :: q' :: qs) x) :
    AsksFor (q' :: q :: qs) x :=
  h.congr fun _ => by simp only [List.mem_cons, or_left_comm]

theorem bind {x : Except Fault α} {f : α → Except Fault β} (hx : AsksFor qs x)
    (hf : ∀ a, x = .ok a → AsksFor qs' (f a)) : AsksFor (qs ++ qs') (x >>= f) := by
  cases x with
  | ok a =>
    have hall := hx.exists_iff.mp ⟨a, rfl⟩
    refine ⟨?_, fun fault h => List.mem_append_right _ ((hf a rfl).fault fault h)⟩
    rw [ok_bind, (hf a rfl).exists_iff, List.forall_mem_append, and_iff_right hall]
  | error fault =>
    have hmem := hx.fault fault rfl
    refine ⟨iff_of_false (by simp) fun h => ?_, ?_⟩
    · obtain ⟨v, hv⟩ := h _ (List.mem_append_left _ hmem)
      cases hv
    · rintro _ ⟨⟩
      exact List.mem_append_left _ hmem

/-- Nothing is asked by a step that surely yields a value. -/
theorem total_bind {x : Except Fault α} {f : α → Except Fault β} (hx : ∃ a, x = .ok a)
    (hf : ∀ a, x = .ok a → AsksFor qs (f a)) : AsksFor qs (x >>= f) := by
  obtain ⟨a, rfl⟩ := hx
  exact hf a rfl

/-- Nothing more is asked by what surely yields a value behind a step. -/
theorem bind_total {x : Except Fault α} {f : α → Except Fault β} (hx : AsksFor qs x)
    (hf : ∀ a, x = .ok a → ∃ b, f a = .ok b) : AsksFor qs (x >>= f) := by
  rw [← List.append_nil qs]
  exact hx.bind fun a ha => of_exists_ok (hf a ha)

theorem exists_ok {x : Except Fault β} (h : AsksFor (γ := γ) [] x) : ∃ b, x = .ok b :=
  h.exists_iff.mpr (by simp)

section Choices

variable {holds : Bool} {x x' : Except Fault α} {f : α → Except Fault β}

/-- What is computed only where it is needed asks only there. -/
theorem choice_bind (hx : AsksFor qs x) (hx' : AsksFor (γ := γ) [] x')
    (hf : ∀ a, AsksFor qs' (f a)) :
    AsksFor ((if holds then qs else []) ++ qs') (if holds then x >>= f else x' >>= f) := by
  cases holds with
  | true => exact hx.bind fun a _ => hf a
  | false => exact hx'.bind fun a _ => hf a

/-- Nothing is asked by a choice between steps that surely yield a value. -/
theorem total_choice (hx : ∃ a, x = .ok a) (hx' : ∃ a, x' = .ok a) (hf : ∀ a, AsksFor qs (f a)) :
    AsksFor qs (if holds then x >>= f else x' >>= f) := by
  cases holds with
  | true => exact .total_bind hx fun a _ => hf a
  | false => exact .total_bind hx' fun a _ => hf a

end Choices

theorem mapM {f : α → Except Fault β} {questions : α → List (Except Fault γ)} {xs : List α}
    (h : ∀ x ∈ xs, AsksFor (questions x) (f x)) : AsksFor (xs.flatMap questions) (xs.mapM f) := by
  induction xs with
  | nil => exact ok []
  | cons x xs ih =>
    rw [List.forall_mem_cons] at h
    rw [List.mapM_cons, List.flatMap_cons]
    exact h.1.bind fun y _ => (ih h.2).bind_total fun ys _ => ⟨y :: ys, rfl⟩

end AsksFor

/-! ## Entries of lists -/

/-- An entry of a list stands where the related one stands in a related list. -/
theorem exists_getElem?_of_forall₂ {α β : Type} {R : α → β → Prop} {xs : List α} {ys : List β}
    (h : List.Forall₂ R xs ys) {i : Nat} {y : β} (hy : ys[i]? = some y) :
    ∃ x, xs[i]? = some x ∧ R x y := by
  induction h generalizing i with
  | nil => cases hy
  | cons hhead _ ih =>
    cases i with
    | zero =>
      cases hy
      exact ⟨_, rfl, hhead⟩
    | succ i => exact ih hy

/-- What holds of entries that are related holds of some entry of both lists or of neither. -/
theorem exists_iff_of_forall₂ {α β : Type} {P : α → Prop} {Q : β → Prop} {xs : List α} {ys : List β}
    (h : List.Forall₂ (fun x y => Q y ↔ P x) xs ys) : (∃ y ∈ ys, Q y) ↔ ∃ x ∈ xs, P x := by
  induction h with
  | nil => simp
  | cons hxy _ ih => simp [hxy, ih]

/-- An entry is found exactly if it stands at the position. -/
theorem entryAt_eq_ok_iff {β : Type} {xs : List β} {i : Nat} {x : β} :
    entryAt xs i = .ok x ↔ xs[i]? = some x := by
  unfold entryAt
  cases xs[i]? <;> simp

theorem rejectsFor_entryAt {β : Type} {p : Rejection → Prop} (xs : List β) (i : Nat) :
    RejectsFor p (entryAt xs i) := by
  unfold entryAt
  cases xs[i]? with
  | none => exact .error (by simp)
  | some x => exact .ok x

theorem entryAt_agree {α β : Type} {R : α → β → Prop} {xs : List α} {ys : List β}
    (h : List.Forall₂ R xs ys) (i : Nat) : Agree R (entryAt xs i) (entryAt ys i) := by
  unfold entryAt
  induction h generalizing i with
  | nil => exact .error _
  | cons hhead _ ih =>
    cases i with
    | zero => exact .ok hhead
    | succ i => exact ih i

end Showreel
