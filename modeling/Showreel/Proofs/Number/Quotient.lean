import Mathlib.Algebra.Order.Field.Power
import Mathlib.Algebra.Order.Ring.Rat
import Mathlib.Tactic.Linarith
import Mathlib.Tactic.NormNum
import Mathlib.Tactic.Positivity
import Mathlib.Tactic.Ring
import Showreel.Document.Operand
import Showreel.Proofs.Fallible

/-!
# Quotients of integers

The double nearest to a quotient exists unless the quotient is too large. That is settled here for
quotients of at most 64 bits, more than frames and coordinates need. How near the double comes is
asked only of numerators with at most 53 bits: their quotients are not rounded up to an integer.
-/

namespace Showreel

namespace Double

variable {num den : Nat}

theorem scale_lt_iff (e : Int) (k : Nat) :
    (scale num den e).1 < (scale num den e).2 * 2 ^ k ↔ (num : ℚ) < den * 2 ^ (e + k) := by
  unfold scale
  rw [Nat.shiftLeft_eq, Nat.shiftLeft_eq, zpow_add₀ two_ne_zero, zpow_natCast, ← mul_assoc]
  rcases Int.le_total 0 e with h | h
  · obtain ⟨n, rfl⟩ := Int.eq_ofNat_of_zero_le h
    rw [Int.toNat_neg_natCast, pow_zero, mul_one, Int.toNat_natCast, zpow_natCast]
    exact_mod_cast Iff.rfl
  · obtain ⟨n, rfl⟩ : ∃ n : Nat, e = -n := ⟨(-e).toNat, by omega⟩
    have hpos : (0 : ℚ) < 2 ^ n := by positivity
    rw [neg_neg, Int.toNat_natCast, Int.toNat_neg_natCast, pow_zero, mul_one, zpow_neg,
      zpow_natCast, mul_right_comm, ← div_eq_mul_inv, lt_div_iff₀ hpos]
    exact_mod_cast Iff.rfl

/-- The exponent is told by the lengths of numerator and denominator, up to one. -/
theorem exponentOf_eq (num den : Nat) : exponentOf num den = max leastExponent
    ((if (num : ℚ) < den * 2 ^ ((num.log2 : Int) - den.log2) then (num.log2 : Int) - den.log2 - 1
      else (num.log2 : Int) - den.log2) - 52) := by
  have hguess : ((num.log2 : Int) - den.log2 - 52 + (52 : Nat)) = num.log2 - den.log2 := by omega
  unfold exponentOf
  dsimp only
  simp only [Nat.shiftLeft_eq, scale_lt_iff, hguess]
  split <;> omega

theorem lt_mul_two_zpow_log2 (hden : 0 < den) :
    (num : ℚ) < den * 2 ^ ((num.log2 : Int) - den.log2 + 1) := by
  have hnum : num < 2 ^ (num.log2 + 1) := Nat.lt_log2_self
  have hlow : 2 ^ den.log2 ≤ den := Nat.log2_self_le (by omega)
  calc (num : ℚ) < 2 ^ (num.log2 + 1) := by exact_mod_cast hnum
    _ = 2 ^ den.log2 * 2 ^ ((num.log2 : Int) - den.log2 + 1) := by
      rw [← zpow_natCast, ← zpow_natCast, ← zpow_add₀ two_ne_zero]
      congr 1
      push_cast
      ring
    _ ≤ den * 2 ^ ((num.log2 : Int) - den.log2 + 1) := by
      gcongr
      exact_mod_cast hlow

theorem mul_two_zpow_log2_le (hnum : 0 < num) :
    (den : ℚ) * 2 ^ ((num.log2 : Int) - den.log2 - 1) ≤ num := by
  have hlow : 2 ^ num.log2 ≤ num := Nat.log2_self_le (by omega)
  have hden : den < 2 ^ (den.log2 + 1) := Nat.lt_log2_self
  calc (den : ℚ) * 2 ^ ((num.log2 : Int) - den.log2 - 1)
      ≤ 2 ^ (den.log2 + 1) * 2 ^ ((num.log2 : Int) - den.log2 - 1) := by
        gcongr
        exact_mod_cast hden.le
    _ = 2 ^ num.log2 := by
      rw [← zpow_natCast, ← zpow_natCast, ← zpow_add₀ two_ne_zero]
      congr 1
      push_cast
      ring
    _ ≤ (num : ℚ) := by exact_mod_cast hlow

/-- At its exponent a quotient has a mantissa of at most 53 bits. -/
theorem scale_exponentOf_lt (hden : 0 < den) :
    (scale num den (exponentOf num den)).1 < (scale num den (exponentOf num den)).2 * 2 ^ 53 := by
  have hmono : ∀ {d e : Int}, d ≤ e → (den : ℚ) * 2 ^ d ≤ den * 2 ^ e := by
    intro d e h
    gcongr
    exact one_le_two
  have hexp := exponentOf_eq num den
  rw [scale_lt_iff]
  split at hexp
  case isTrue hsmall => exact hsmall.trans_le (hmono (by omega))
  case isFalse => exact (lt_mul_two_zpow_log2 hden).trans_le (hmono (by omega))

/-- At an exponent above the least one a quotient has a mantissa of no less than 53 bits. -/
theorem le_scale_exponentOf (hnum : 0 < num) (h : exponentOf num den ≠ leastExponent) :
    (scale num den (exponentOf num den)).2 * 2 ^ 52 ≤ (scale num den (exponentOf num den)).1 := by
  have hexp := exponentOf_eq num den
  rw [← not_lt, scale_lt_iff, not_lt]
  split at hexp
  case isTrue =>
    have he : exponentOf num den + (52 : Nat) = num.log2 - den.log2 - 1 := by omega
    rw [he]
    exact mul_two_zpow_log2_le hnum
  case isFalse hlarge =>
    have he : exponentOf num den + (52 : Nat) = num.log2 - den.log2 := by omega
    rw [he]
    exact not_lt.mp hlarge

theorem exponentOf_le {k : Nat} (hnum : 0 < num) (hlt : num < den * 2 ^ k) :
    exponentOf num den ≤ k - 52 := by
  have hlog : num.log2 ≤ den.log2 + k := by
    have hlow : 2 ^ num.log2 ≤ num := Nat.log2_self_le (by omega)
    have hden : den < 2 ^ (den.log2 + 1) := Nat.lt_log2_self
    have hpow : 2 ^ num.log2 < 2 ^ (den.log2 + 1 + k) := by
      calc 2 ^ num.log2 ≤ num := hlow
        _ < den * 2 ^ k := hlt
        _ ≤ 2 ^ (den.log2 + 1) * 2 ^ k := by gcongr
        _ = 2 ^ (den.log2 + 1 + k) := (pow_add 2 _ _).symm
    have hexp := (Nat.pow_lt_pow_iff_right (by omega)).mp hpow
    omega
  unfold exponentOf leastExponent
  dsimp only
  split <;> omega

theorem roundQuotient_le {n d bound : Nat} (h : n < d * bound) : roundQuotient n d ≤ bound := by
  have hquotient : n / d < bound := Nat.div_lt_of_lt_mul h
  unfold roundQuotient
  dsimp only
  split <;> omega

theorem le_roundQuotient (n d : Nat) : n / d ≤ roundQuotient n d := by
  unfold roundQuotient
  dsimp only
  split <;> omega

/-- What is rounded up to a whole number of `2 ^ s` came at least as near to it as half a unit, but
the numerator keeps a whole unit away. -/
theorem roundQuotient_lt {s bound : Nat} (hnum : num < den * bound)
    (hs : num < 2 ^ 53 ∧ den * 2 ^ 52 ≤ num * 2 ^ s ∨ num * 2 ^ s < den * (2 ^ s - 1)) :
    roundQuotient (num * 2 ^ s) den < bound * 2 ^ s := by
  have hscaled : num * 2 ^ s < den * (bound * 2 ^ s) := by
    rw [← mul_assoc]
    exact Nat.mul_lt_mul_of_pos_right hnum (Nat.two_pow_pos s)
  have hquotient : num * 2 ^ s / den < bound * 2 ^ s := Nat.div_lt_of_lt_mul hscaled
  unfold roundQuotient
  dsimp only
  split
  case isFalse => exact hquotient
  case isTrue hup =>
    refine lt_of_le_of_ne hquotient fun heq => ?_
    have hrest := Nat.div_add_mod (num * 2 ^ s) den
    have hunit : (num + 1) * 2 ^ s ≤ den * bound * 2 ^ s := Nat.mul_le_mul_right _ hnum
    have hbound : den * bound * 2 ^ s = den * (num * 2 ^ s / den) + den := by
      rw [mul_assoc, ← heq]
      ring
    have hwide : 2 * 2 ^ s ≤ den := by
      rw [add_mul] at hunit
      omega
    rcases hs with ⟨hsmall, hfull⟩ | hfew
    · have hlarge : 2 ^ 53 * 2 ^ s ≤ num * 2 ^ s := by
        calc 2 ^ 53 * 2 ^ s = 2 * 2 ^ s * 2 ^ 52 := by ring
          _ ≤ den * 2 ^ 52 := Nat.mul_le_mul_right _ hwide
          _ ≤ num * 2 ^ s := hfull
      exact hsmall.not_ge (Nat.le_of_mul_le_mul_right hlarge (Nat.two_pow_pos s))
    · have hpos : 0 < bound := Nat.pos_of_ne_zero fun h => by simp [h] at hnum
      have hfirst : num * 2 ^ s / den < 2 ^ s - 1 := Nat.div_lt_of_lt_mul hfew
      have hle : 2 ^ s ≤ num * 2 ^ s / den + 1 := heq ▸ Nat.le_mul_of_pos_left _ hpos
      exact (Nat.add_lt_of_lt_sub hfirst).not_ge hle

/-- A quotient of at most 64 bits is near some double. -/
theorem exists_nearest (negative : Bool) (hlt : num < den * 2 ^ 64) :
    ∃ x, nearest negative num den = some x := by
  suffices h : nearestBits negative num den < infinityBits negative by
    unfold nearest
    rw [if_pos h]
    exact ⟨_, rfl⟩
  unfold nearestBits infinityBits
  simp only [Nat.pow_eq]
  by_cases hnum : num = 0
  · rw [if_pos hnum]
    omega
  · have hden : 0 < den := Nat.pos_of_ne_zero fun h => by simp [h] at hlt
    have hexp := exponentOf_le (by omega) hlt
    have hlow : leastExponent ≤ exponentOf num den := le_max_left _ _
    have hmantissa := roundQuotient_le (@scale_exponentOf_lt num _ hden)
    rw [if_neg hnum]
    simp only [leastExponent] at hlow ⊢
    omega

end Double

namespace Number

-- Stated of the function itself: of one integer, checking it would begin to round that integer.
theorem doubleOfInt_eq : doubleOfInt = fun n =>
    match Double.ofInt n with
    | some x => .ok x
    | none => .error .overflow := rfl

/-- An integer of at most 64 bits is near some double. -/
theorem exists_doubleOfInt {n : Int} (hn : n.natAbs < 2 ^ 64) : ∃ x, doubleOfInt n = .ok x := by
  obtain ⟨x, hx⟩ : ∃ x, Double.ofInt n = some x :=
    Double.exists_nearest _ (by rwa [one_mul])
  refine ⟨x, ?_⟩
  rw [doubleOfInt_eq]
  dsimp only
  rw [hx]

theorem exists_quotientOfInts {m n : Int} (hm : m.natAbs < n.natAbs * 2 ^ 64) :
    ∃ x, quotientOfInts m n = .ok (.double x) ∧
      ∃ negative, Double.nearest negative m.natAbs n.natAbs = some x := by
  obtain ⟨x, hx⟩ := Double.exists_nearest (decide (m < 0) != decide (n < 0)) hm
  have hn : n ≠ 0 := by
    rintro rfl
    simp at hm
  exact ⟨x, by rw [quotientOfInts, if_neg hn, hx], _, hx⟩

end Number

/-- Dividing a whole number by a larger one never fails. -/
theorem Document.exists_div_int {m n : Int} (hm : 0 ≤ m) (hmn : m < n) :
    ∃ x, Arith.div (Document.int m) (.int n) = .ok (.double x) := by
  obtain ⟨x, hx, -⟩ := Number.exists_quotientOfInts (show m.natAbs < n.natAbs * 2 ^ 64 by omega)
  refine ⟨x, ?_⟩
  change Number.document <$> Number.quotientOfInts m n = _
  rw [hx]
  rfl

end Showreel
