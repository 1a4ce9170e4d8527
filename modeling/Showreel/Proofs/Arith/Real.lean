import Mathlib.Analysis.SpecialFunctions.Trigonometric.Basic
import Mathlib.Tactic.NormNum.OfScientific
import Showreel.Proofs.Arith.Measured

/-!
# Real arithmetic

Real numbers as a number system and as measured quantities: roots, exponentials and periodic
functions are the exact ones. Nothing fails but a division by zero and the root of a negative
number. Laws about springs are stated here.
-/

namespace Showreel

noncomputable instance : Arith ℝ where
  ofInt n := n
  lt a b := .ok (decide (a < b))
  le a b := .ok (decide (a ≤ b))
  widen a := .ok a
  add a b := .ok (a + b)
  sub a b := .ok (a - b)
  mul a b := .ok (a * b)
  div a b := if b = 0 then .error .divisionByZero else .ok (a / b)
  modulo a b := if b = 0 then .error .divisionByZero else .ok (a - b * ⌊a / b⌋)
  power a n := .ok (a ^ n)
  floor a := .ok ⌊a⌋
  isKey _ := true
  -- No text is as exact as a real number, so messages show the whole part.
  shown a := .ok (toString ⌊a⌋)
  quoted a := .ok (toString ⌊a⌋)

noncomputable instance : Analytic ℝ where
  decidableLT := inferInstance
  decidableLE := inferInstance
  quotient a b := if b = 0 then .error .divisionByZero else .ok (a / b)
  sqrt a := if a < 0 then .error .badValue else .ok √a
  exp a := .ok (Real.exp a)
  sin a := .ok (Real.sin a)
  cos a := .ok (Real.cos a)
  magnitude a := |a|

noncomputable instance : Measured ℝ ℝ where
  measure a := .ok a
  ofMeasure a := a

namespace Arith

@[simp] theorem ofInt_real (n : Int) : (ofInt n : ℝ) = n := rfl

@[simp] theorem lt_real (a b : ℝ) : lt a b = .ok (decide (a < b)) := rfl

@[simp] theorem le_real (a b : ℝ) : le a b = .ok (decide (a ≤ b)) := rfl

theorem div_real {b : ℝ} (h : b ≠ 0) (a : ℝ) : div a b = .ok (a / b) := if_neg h

theorem zero_real : @OfScientific.ofScientific ℝ Arith.toOfScientific 0 true 1 = 0 := by
  change @OfScientific.ofScientific ℝ _ 0 true 1 = 0
  norm_num

end Arith

namespace Analytic

theorem quotient_real {b : ℝ} (h : b ≠ 0) (a : ℝ) : quotient a b = .ok (a / b) := if_neg h

theorem sqrt_real {a : ℝ} (h : 0 ≤ a) : sqrt a = .ok √a := if_neg (not_lt.mpr h)

theorem zero_real : @OfScientific.ofScientific ℝ Analytic.toOfScientific 0 true 1 = 0 := by norm_num

theorem one_real : @OfScientific.ofScientific ℝ Analytic.toOfScientific 10 true 1 = 1 := by norm_num

theorem two_real : @OfScientific.ofScientific ℝ Analytic.toOfScientific 20 true 1 = 2 := by norm_num

end Analytic

namespace Measured

@[simp] theorem measure_real (a : ℝ) : measure a = .ok a := rfl

instance : Faithful ℝ where
  zero_eq := Arith.zero_real.trans Analytic.zero_real.symm
  measure_ofMeasure _ := rfl
  exists_of_div {_ _ c} _ := ⟨c, rfl⟩
  le_zero m := by
    rw [Analytic.zero_real, Arith.le_real, Arith.ofInt_real, Int.cast_zero]
    rfl
  isPositive {a} h := by
    have ha : 0 < a := by simpa using h
    refine ⟨rfl, by simpa using ha, fun m => ⟨_, rfl⟩, fun m => ⟨_, rfl⟩, ?_, ?_, ?_⟩
    · intro m hm
      simpa using hm
    · intro m m' _ hm
      simpa using hm
    · intro m m' hle hm
      simp only [Arith.le_real, Arith.lt_real, Except.ok.injEq, decide_eq_true_eq] at hle hm ⊢
      exact hle.trans_lt hm

end Measured

end Showreel
