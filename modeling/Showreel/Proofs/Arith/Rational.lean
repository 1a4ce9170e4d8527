import Mathlib.Data.Rat.Floor
import Mathlib.Tactic.NormNum.OfScientific
import Showreel.Proofs.Arith.Whole

/-!
# Exact arithmetic

Rational numbers as a number system: every operation is exact, and nothing fails but a division by
zero. Laws about motion that rounding would blur are stated here.
-/

namespace Showreel

instance : Arith ℚ where
  ofInt n := n
  lt a b := .ok (decide (a < b))
  le a b := .ok (decide (a ≤ b))
  widen a := .ok a
  add a b := .ok (a + b)
  sub a b := .ok (a - b)
  mul a b := .ok (a * b)
  div a b := if b = 0 then .error .divisionByZero else .ok (a / b)
  modulo a b := if b = 0 then .error .divisionByZero else .ok (a - b * ⌊a / b⌋)
  power a n := .ok (a ^ n)
  floor a := .ok ⌊a⌋
  isKey _ := true
  shown a := .ok (toString a)
  quoted a := .ok (toString a)

namespace Arith

@[simp] theorem ofInt_rat (n : Int) : (ofInt n : ℚ) = n := rfl

@[simp] theorem lt_rat (a b : ℚ) : lt a b = .ok (decide (a < b)) := rfl

@[simp] theorem le_rat (a b : ℚ) : le a b = .ok (decide (a ≤ b)) := rfl

@[simp] theorem widen_rat (a : ℚ) : widen a = .ok a := rfl

@[simp] theorem add_rat (a b : ℚ) : add a b = .ok (a + b) := rfl

@[simp] theorem sub_rat (a b : ℚ) : sub a b = .ok (a - b) := rfl

@[simp] theorem mul_rat (a b : ℚ) : mul a b = .ok (a * b) := rfl

@[simp] theorem floor_rat (a : ℚ) : floor a = .ok ⌊a⌋ := rfl

theorem div_rat {b : ℚ} (h : b ≠ 0) (a : ℚ) : div a b = .ok (a / b) := if_neg h

theorem modulo_rat {b : ℚ} (h : b ≠ 0) (a : ℚ) : modulo a b = .ok (a - b * ⌊a / b⌋) := if_neg h

/-- Decimal literals denote the rational numbers that they write. -/
theorem ofScientific_rat (m : Nat) (negative : Bool) (e : Nat) :
    @OfScientific.ofScientific ℚ Arith.toOfScientific m negative e =
      @OfScientific.ofScientific ℚ Rat.instOfScientific m negative e := rfl

theorem zero_rat : @OfScientific.ofScientific ℚ Arith.toOfScientific 0 true 1 = 0 := by
  rw [ofScientific_rat]
  norm_num

theorem one_rat : @OfScientific.ofScientific ℚ Arith.toOfScientific 10 true 1 = 1 := by
  rw [ofScientific_rat]
  norm_num

theorem two_rat : @OfScientific.ofScientific ℚ Arith.toOfScientific 20 true 1 = 2 := by
  rw [ofScientific_rat]
  norm_num

theorem half_rat : @OfScientific.ofScientific ℚ Arith.toOfScientific 5 true 1 = 1 / 2 := by
  rw [ofScientific_rat]
  norm_num

instance : Whole ℚ where
  lt_ofInt m n := by simp
  le_ofInt m n := by simp
  add_ofInt m n := by simp
  sub_ofInt m n := by simp

theorem least_rat (a b : ℚ) : least a b = .ok (min a b) := by
  simp only [least, lt_rat, ok_bind, decide_eq_true_eq]
  split
  case isTrue h => rw [min_eq_right h.le, pure_eq_ok]
  case isFalse h => rw [min_eq_left (not_lt.mp h), pure_eq_ok]

theorem greatest_rat (a b : ℚ) : greatest a b = .ok (max a b) := by
  simp only [greatest, lt_rat, ok_bind, decide_eq_true_eq]
  split
  case isTrue h => rw [max_eq_right h.le, pure_eq_ok]
  case isFalse h => rw [max_eq_left (not_lt.mp h), pure_eq_ok]

theorem total_rat (xs : List ℚ) : total xs = .ok xs.sum := by
  have hfold : ∀ (xs : List ℚ) (start : ℚ), xs.foldlM add start = .ok (start + xs.sum) := by
    intro xs
    induction xs with
    | nil => intro start; simp
    | cons x xs ih => intro start; simp [ih, add_assoc]
  have hzero := hfold xs 0
  rw [zero_add] at hzero
  exact hzero

theorem saturate_rat (x : ℚ) : saturate x = .ok (max 0 (min 1 x)) := by
  rw [saturate, one_rat, zero_rat, least_rat, ok_bind, greatest_rat]

theorem saturate_rat_mem {x y : ℚ} (h : saturate x = .ok y) : 0 ≤ y ∧ y ≤ 1 := by
  rw [saturate_rat] at h
  cases h
  exact ⟨le_max_left _ _, max_le zero_le_one (min_le_left _ _)⟩

end Arith

end Showreel
