import Mathlib.Algebra.Order.BigOperators.Group.List
import Mathlib.Tactic.Linarith
import Showreel.Document.Operand
import Showreel.Proofs.Fallible

/-!
# Whole numbers

Frames and lengths are whole numbers in every number system at hand. `Whole` says that they are
compared, added and subtracted exactly there; documents do so. The search by halving is settled here
for any number system, from nothing but the comparisons that it makes.
-/

namespace Showreel.Arith

/-- A number system that compares, adds and subtracts whole numbers exactly. -/
class Whole (α : Type) [Arith α] : Prop where
  lt_ofInt : ∀ m n : Int, lt (ofInt m : α) (ofInt n) = .ok (decide (m < n))
  le_ofInt : ∀ m n : Int, le (ofInt m : α) (ofInt n) = .ok (decide (m ≤ n))
  add_ofInt : ∀ m n : Int, add (ofInt m : α) (ofInt n) = .ok (ofInt (m + n))
  sub_ofInt : ∀ m n : Int, sub (ofInt m : α) (ofInt n) = .ok (ofInt (m - n))

attribute [simp] Whole.lt_ofInt Whole.le_ofInt Whole.add_ofInt Whole.sub_ofInt

instance : Whole Document where
  lt_ofInt m n := by
    change Document.lt (.int m) (.int n) = _
    simp only [Document.lt, Document.compareBy, Document.onNumbers, Document.number?, Number.lt,
      Number.order]
    by_cases h : m < n
    · simp [h, Int.compare_eq_lt]
    · simp [h, Int.compare_eq_lt]
  le_ofInt m n := by
    change Document.le (.int m) (.int n) = _
    simp only [Document.le, Document.compareBy, Document.onNumbers, Document.number?, Number.le,
      Number.order]
    rcases lt_trichotomy m n with h | h | h
    · simp [Int.compare_eq_lt.mpr h, h.le]
    · simp [h]
    · simp [Int.compare_eq_gt.mpr h, h]
  add_ofInt _ _ := rfl
  sub_ofInt _ _ := rfl

section Operations

variable {α : Type} [Arith α] [Whole α]

@[simp] theorem least_ofInt (m n : Int) :
    least (ofInt m : α) (ofInt n) = .ok (ofInt (min m n)) := by
  simp only [least, Whole.lt_ofInt, ok_bind, decide_eq_true_eq]
  split
  · rw [min_eq_right (by omega)]; rfl
  · rw [min_eq_left (by omega)]; rfl

@[simp] theorem greatest_ofInt (m n : Int) :
    greatest (ofInt m : α) (ofInt n) = .ok (ofInt (max m n)) := by
  simp only [greatest, Whole.lt_ofInt, ok_bind, decide_eq_true_eq]
  split
  · rw [max_eq_right (by omega)]; rfl
  · rw [max_eq_left (by omega)]; rfl

@[simp] theorem between_ofInt (x low high : Int) :
    between (ofInt x : α) (ofInt low) (ofInt high) = .ok (decide (low ≤ x ∧ x < high)) := by
  simp only [between, Whole.le_ofInt, Whole.lt_ofInt, ok_bind, decide_eq_true_eq]
  by_cases h : low ≤ x <;> simp [h]

/-- Sums of whole numbers are exact. -/
@[simp] theorem total_ofInt (ns : List Int) :
    total (ns.map ofInt : List α) = .ok (ofInt ns.sum) := by
  have hfold : ∀ (ns : List Int) (m : Int),
      (ns.map ofInt : List α).foldlM add (ofInt m) = .ok (ofInt (m + ns.sum)) := by
    intro ns
    induction ns with
    | nil => intro m; simp
    | cons n ns ih => intro m; simp [ih, add_assoc]
  simpa [total] using hfold ns 0

end Operations

/-! ## Searching -/

section Search

variable {α : Type} [Arith α] {xs : List α} {x : α} {above : Nat → Prop} [DecidablePred above]

/-- Halving closes in on the first entry above `x`: in front of the stretch nothing is above, and
behind it everything. -/
theorem upperBound_eq (hlt : ∀ i b, xs[i]? = some b → lt x b = .ok (decide (above i)))
    (hmono : ∀ i j, i ≤ j → above i → above j) (fuel lo hi : Nat) (hhi : hi ≤ xs.length)
    (hlohi : lo ≤ hi) (hfuel : hi - lo ≤ fuel) (hfront : ∀ i < lo, ¬ above i)
    (hback : hi < xs.length → above hi) :
    ∃ k ≤ xs.length, upperBound xs x fuel lo hi = .ok k ∧ (∀ i < k, ¬ above i) ∧
      (k < xs.length → above k) := by
  induction fuel generalizing lo hi with
  | zero =>
    obtain rfl : lo = hi := by omega
    exact ⟨lo, hhi, rfl, hfront, hback⟩
  | succ fuel ih =>
    unfold upperBound
    by_cases hlt' : lo < hi
    · have hmid : (lo + hi) / 2 < xs.length := by omega
      have hget : xs[(lo + hi) / 2]? = some xs[(lo + hi) / 2] := List.getElem?_eq_getElem hmid
      simp only [hlt', ↓reduceIte, hget, hlt _ _ hget, ok_bind, decide_eq_true_eq]
      split
      case isTrue h => exact ih lo _ (by omega) (by omega) (by omega) hfront fun _ => h
      case isFalse h =>
        refine ih _ hi hhi (by omega) (by omega) (fun i hi' hi => h ?_) hback
        exact hmono i _ (by omega) hi
    · obtain rfl : lo = hi := by omega
      exact ⟨lo, hhi, by simp, hfront, hback⟩

/-- The number of entries at most `x` in a list whose entries above `x` stand at its end: it is the
position of the first of them. -/
theorem countUpTo_eq (hlt : ∀ i b, xs[i]? = some b → lt x b = .ok (decide (above i)))
    (hmono : ∀ i j, i ≤ j → above i → above j) :
    ∃ k ≤ xs.length, countUpTo xs x = .ok k ∧ ∀ i < xs.length, above i ↔ k ≤ i := by
  obtain ⟨k, hk, heq, hbelow, habove⟩ := upperBound_eq hlt hmono xs.length 0 xs.length le_rfl
    (Nat.zero_le _) le_rfl (by simp) (by simp)
  refine ⟨k, hk, heq, fun i hi => ⟨fun h => ?_, fun h => ?_⟩⟩
  · by_contra hlt'
    exact hbelow i (by omega) h
  · exact hmono k i h (habove (by omega))

end Search

end Showreel.Arith
