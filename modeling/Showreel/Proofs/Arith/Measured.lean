import Showreel.Document.Operand
import Showreel.Proofs.Fallible
import Showreel.Proofs.Number.Unordered

/-!
# Measured quantities as numbers

A measured quantity is a number again, and it keeps its place among the numbers: it can be held
against every positive one. `Faithful` says so of a number system; documents are measured in doubles
and keep what is no number apart, which is above and below nothing.
-/

namespace Showreel

/-! ## Comparing values that are numbers -/

namespace Document

theorem compareBy_of_number {v : Document} {x : Number} (h : v.number? = some x)
    (onNumber : Number → Number → Bool) (onOrder : Ordering → Bool) (w : Document) :
    v.compareBy onNumber onOrder w = match w.number? with
      | some y => .ok (onNumber x y)
      | none => .error .wrongType := by
  have hnumbers : v.compareBy onNumber onOrder w =
      onNumbers (fun x y => .ok (onNumber x y)) v w := by
    unfold compareBy
    cases v with
    | flag b => rfl
    | int n => rfl
    | double x => rfl
    | _ => cases h
  rw [hnumbers, onNumbers, h]
  cases w.number? <;> rfl

theorem lt_of_number {v : Document} {x : Number} (h : v.number? = some x) (w : Document) :
    Arith.lt v w = match w.number? with
      | some y => .ok (x.lt y)
      | none => .error .wrongType :=
  compareBy_of_number h _ _ w

theorem lt_numbers {v w : Document} {x y : Number} (hv : v.number? = some x)
    (hw : w.number? = some y) : Arith.lt v w = .ok (x.lt y) := by
  rw [lt_of_number hv, hw]

theorem le_numbers {v w : Document} {x y : Number} (hv : v.number? = some x)
    (hw : w.number? = some y) : Arith.le v w = .ok (x.le y) := by
  rw [show Arith.le v w = _ from compareBy_of_number hv _ _ w, hw]

theorem number?_of_lt {n : Int} {v : Document} {holds : Bool}
    (h : Arith.lt (.int n) v = .ok holds) : ∃ x, v.number? = some x := by
  rw [lt_of_number (v := .int n) rfl] at h
  cases hv : v.number? with
  | some x => exact ⟨x, rfl⟩
  | none =>
    rw [hv] at h
    cases h

theorem isKey_of_number {v : Document} {x : Number} (h : v.number? = some x) : v.isKey = true := by
  cases v with
  | list _ => cases h
  | mapping _ => cases h
  | _ => rfl

end Document

namespace Measured

open Arith

/-- A positive number can be told from zero and kept under, and every measured quantity can be held
against it. -/
structure IsPositive {α μ : Type} [Measured α μ] (a : α) : Prop where
  isKey : isKey a = true
  not_le_zero : le a (ofInt 0) = .ok false
  exists_le : ∀ m : μ, ∃ holds, le a (ofMeasure m) = .ok holds
  exists_lt : ∀ m : μ, ∃ holds, lt (ofMeasure m) a = .ok holds
  not_le_of_lt : ∀ {m : μ}, lt (ofMeasure m) a = .ok true → le a (ofMeasure m) = .ok false
  /-- What can be compared at all is below the number if it is not at least the number. -/
  lt_of_not_le : ∀ {m m' : μ}, le (ofMeasure m : α) (ofMeasure m') = .ok true →
    le a (ofMeasure m) = .ok false → lt (ofMeasure m) a = .ok true
  lt_of_le_of_lt : ∀ {m m' : μ}, le (ofMeasure m : α) (ofMeasure m') = .ok true →
    lt (ofMeasure m') a = .ok true → lt (ofMeasure m) a = .ok true

/-- A number system in which measured quantities are numbers, quotients among them. -/
class Faithful (α : Type) {μ : Type} [Analytic μ] [Measured α μ] : Prop where
  zero_eq : (0.0 : α) = ofMeasure (0.0 : μ)
  measure_ofMeasure : ∀ m : μ, measure (ofMeasure m : α) = .ok m
  exists_of_div : ∀ {a b c : α}, div a b = .ok c → ∃ m : μ, c = ofMeasure m
  le_zero : ∀ m : μ, le (ofMeasure m : α) (ofInt 0) = .ok (decide (m ≤ 0.0))
  isPositive : ∀ {a : α}, lt (ofInt 0) a = .ok true → IsPositive a

end Measured

namespace Number

theorem exists_of_div {a b c : Number} (h : a.div b = .ok c) : ∃ x, c = .double x := by
  cases a with
  | int m =>
    cases b with
    | int n =>
      change quotientOfInts m n = .ok c at h
      unfold quotientOfInts at h
      split at h
      · cases h
      · split at h
        · cases h
          exact ⟨_, rfl⟩
        · cases h
    | double y =>
      obtain ⟨x, -, h⟩ := bind_eq_ok_iff.mp h
      obtain ⟨z, -, h⟩ := bind_eq_ok_iff.mp h
      cases h
      exact ⟨z, rfl⟩
  | double x =>
    cases b with
    | int n =>
      obtain ⟨y, -, h⟩ := bind_eq_ok_iff.mp h
      obtain ⟨z, -, h⟩ := bind_eq_ok_iff.mp h
      cases h
      exact ⟨z, rfl⟩
    | double y =>
      obtain ⟨z, -, h⟩ := bind_eq_ok_iff.mp h
      cases h
      exact ⟨z, rfl⟩

theorem le_zero_iff (x : Float) : (double x).le (int 0) = true ↔ x ≤ 0.0 := by
  have hzero : (Double.parts 0.0).place = (int 0).place := by decide +kernel
  rw [Double.le_iff, ← order_doubles, order_eq_some_iff, order_eq_some_iff, le, Bool.or_eq_true,
    beq_iff_eq, beq_iff_eq, order_eq_some_iff, order_eq_some_iff, ← hzero]
  rfl

end Number

open Measured in
theorem Document.isPositive {a : Document} (h : Arith.lt (Arith.ofInt 0) a = .ok true) :
    IsPositive a := by
  obtain ⟨x, hx⟩ := number?_of_lt h
  have hpos : (Number.int 0).lt x = true := by
    rw [lt_numbers rfl hx] at h
    exact Except.ok.inj h
  have hle (m : Float) : Arith.le a (ofMeasure m) = .ok (x.le (.double m)) := le_numbers hx rfl
  have hlt (m : Float) : Arith.lt (ofMeasure m) a = .ok ((Number.double m).lt x) :=
    lt_numbers rfl hx
  have hmeasures (m m' : Float) : Arith.le (ofMeasure m : Document) (ofMeasure m') =
      .ok ((Number.double m).le (.double m')) := le_numbers rfl rfl
  refine ⟨isKey_of_number hx, ?_, fun m => ⟨_, hle m⟩, fun m => ⟨_, hlt m⟩, ?_, ?_, ?_⟩
  · rw [le_numbers hx rfl, Number.not_le_of_lt hpos]
  · intro m hm
    rw [hlt] at hm
    rw [hle, Number.not_le_of_lt (Except.ok.inj hm)]
  · intro m m' hmm' hm
    rw [hmeasures] at hmm'
    rw [hle] at hm
    obtain ⟨hnumber, -⟩ := Number.not_isNan_of_le (Except.ok.inj hmm')
    obtain ⟨-, hx⟩ := Number.not_isNan_of_le (Number.le_of_lt hpos)
    rw [hlt, (Number.ordered hx hnumber).1.mp (Except.ok.inj hm)]
  · intro m m' hmm' hm
    rw [hmeasures] at hmm'
    rw [hlt] at hm
    rw [hlt, Number.lt_of_le_of_lt (Except.ok.inj hmm') (Except.ok.inj hm)]

instance : Measured.Faithful Document where
  zero_eq := rfl
  measure_ofMeasure _ := rfl
  exists_of_div {a b c} h := by
    change Document.calculate Number.div a b = .ok c at h
    unfold Document.calculate at h
    split at h
    · obtain ⟨q, hq, h⟩ := bind_eq_ok_iff.mp h
      obtain ⟨x, rfl⟩ := Number.exists_of_div hq
      cases h
      exact ⟨x, rfl⟩
    · cases h
  le_zero m := by
    rw [show Arith.le (Measured.ofMeasure m : Document) (Arith.ofInt 0) = _ from
      Document.le_numbers rfl rfl]
    congr 1
    rw [Bool.eq_iff_iff, decide_eq_true_iff]
    exact Number.le_zero_iff m
  isPositive := Document.isPositive

end Showreel
