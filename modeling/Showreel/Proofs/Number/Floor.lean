import Showreel.Proofs.Number.Finite
import Showreel.Proofs.Number.Quotient

/-!
# Whole parts of quotients

A quotient of integers is a double, and rounding that down is to find the integer quotient. The
double nearest to a quotient is not below the integer quotient, which is a double itself, and with a
numerator of at most 53 bits it does not reach the next integer either: the quotient keeps a whole
unit of its denominator away from it, which is more than half of the last place of the mantissa.
-/

namespace Showreel

namespace Double

/-- The largest integer at most a finite double is the whole part of its units. -/
theorem floorParts_eq {negative : Bool} {m : Nat} {e : Int} (he : leastExponent ≤ e) :
    floorParts negative m e = units negative m e / 2 ^ (-leastExponent).toNat := by
  obtain ⟨j, rfl⟩ : ∃ j : Nat, e = leastExponent + j := ⟨(e - leastExponent).toNat, by omega⟩
  have hpos : (0 : Int) ≤ 2 ^ (-(leastExponent + j)).toNat := by positivity
  have hscale : (0 : Int) < 2 ^ (min j 1074) := by positivity
  unfold floorParts units
  rw [Int.pow_eq, Int.pow_eq, Int.fdiv_eq_ediv_of_nonneg _ hpos,
    ← Int.mul_ediv_mul_of_pos_left _ _ hscale, mul_assoc, ← pow_add, ← pow_add]
  unfold leastExponent
  congr 3 <;> omega

/-- A mantissa of at most 53 bits, written at an exponent, is read as a double of as many units. A
mantissa of less than 53 bits is written at the least exponent only. -/
theorem exists_parts_of_mantissa {k r : Nat} (hr : r ≤ 2 ^ 53) (hk : k = 0 ∨ 2 ^ 52 ≤ r)
    (hlt : k * 2 ^ 52 + r < 2047 * 2 ^ 52) :
    ∃ m e, leastExponent ≤ e ∧
      parts (Float.ofBits (UInt64.ofNat (k * 2 ^ 52 + r))) = .finite false m e ∧
      units false m e = r * 2 ^ k := by
  have hbits : (UInt64.ofNat (k * 2 ^ 52 + r)).toNat = k * 2 ^ 52 + r := by
    rw [UInt64.toNat_ofNat']
    omega
  have hfinite : (UInt64.ofNat (k * 2 ^ 52 + r)).toNat / 2 ^ 52 % 2 ^ 11 ≠ 2047 := by
    rw [hbits]
    omega
  have hpositive : decide (2 ^ 63 ≤ k * 2 ^ 52 + r) = false := decide_eq_false (by omega)
  unfold parts
  simp only [Nat.pow_eq, toBits_ofBits hfinite, hbits]
  rw [hbits] at hfinite
  rw [if_neg hfinite, hpositive]
  split
  case isTrue hsmall =>
    -- the exponent field is zero, so nothing but the mantissa is written
    obtain rfl : k = 0 := by omega
    have hlow : (0 * 2 ^ 52 + r) % 2 ^ 52 = r := by omega
    rw [hlow]
    exact ⟨r, leastExponent, le_rfl, rfl, by simp [units, signed]⟩
  case isFalse hlarge =>
    rcases hr.lt_or_eq with hr | hr
    · have hlow : (k * 2 ^ 52 + r) % 2 ^ 52 + 2 ^ 52 = r := by omega
      have hfield : (k * 2 ^ 52 + r) / 2 ^ 52 % 2 ^ 11 = k + 1 := by omega
      rw [hlow, hfield]
      refine ⟨r, _, ?_, rfl, ?_⟩
      · push_cast
        omega
      · simp [units, signed]
    · -- the mantissa has carried into the exponent
      have hlow : (k * 2 ^ 52 + r) % 2 ^ 52 + 2 ^ 52 = 2 ^ 52 := by omega
      have hfield : (k * 2 ^ 52 + r) / 2 ^ 52 % 2 ^ 11 = k + 2 := by omega
      rw [hlow, hfield]
      refine ⟨2 ^ 52, _, ?_, rfl, ?_⟩
      · push_cast
        omega
      · have hexp : ((k + 2 : Nat) : Int) - 1 + leastExponent - leastExponent = (k + 1 : Nat) := by
          push_cast
          ring
        rw [units, hexp, Int.toNat_natCast, hr]
        simp only [signed, Bool.false_eq_true, ↓reduceIte]
        push_cast
        ring

variable {num den : Nat}

/-- The bits of the double nearest to a quotient of a numerator with at most 53 bits: an exponent and
a mantissa whose last places, as many as the exponent has it, are behind the point. -/
theorem exists_nearestBits (hden : 0 < den) (hnum : num < 2 ^ 53) :
    ∃ k r s, nearestBits false num den = k * 2 ^ 52 + r ∧ k + s = 1074 ∧ r ≤ 2 ^ 53 ∧
      (k = 0 ∨ 2 ^ 52 ≤ r) ∧ r / 2 ^ s = num / den := by
  rcases Nat.eq_zero_or_pos num with rfl | hpos
  · exact ⟨0, 0, 1074, rfl, rfl, by decide, .inl rfl, by rw [Nat.zero_div, Nat.zero_div]⟩
  have hwithin : num < den * 2 ^ 53 := hnum.trans_le (Nat.le_mul_of_pos_left _ hden)
  have hexp := exponentOf_eq num den
  have hhigh : exponentOf num den ≤ 0 := by
    have hlog : num.log2 < 53 := (Nat.log2_lt hpos.ne').mpr hnum
    unfold leastExponent at hexp
    split at hexp <;> omega
  have hlow : leastExponent ≤ exponentOf num den := hexp ▸ le_max_left _ _
  obtain ⟨s, hs⟩ : ∃ s : Nat, exponentOf num den = -s := ⟨(-exponentOf num den).toNat, by omega⟩
  have hscale : scale num den (exponentOf num den) = (num * 2 ^ s, den) := by
    simp [scale, hs, Nat.shiftLeft_eq]
  have hless := @scale_exponentOf_lt num den hden
  have hmore := @le_scale_exponentOf num den hpos
  rw [hscale] at hless hmore
  dsimp only at hless hmore
  refine ⟨(exponentOf num den - leastExponent).toNat, roundQuotient (num * 2 ^ s) den, s, ?_, ?_,
    roundQuotient_le hless, ?_, ?_⟩
  · simp [nearestBits, hpos.ne', hscale]
  · unfold leastExponent at hlow ⊢
    omega
  · by_cases hleast : exponentOf num den = leastExponent
    · exact .inl (by omega)
    · refine .inr (le_trans ?_ (le_roundQuotient _ _))
      rw [Nat.le_div_iff_mul_le hden, mul_comm]
      exact hmore hleast
  · refine Nat.div_eq_of_lt_le ?_ (roundQuotient_lt (Nat.lt_mul_div_succ num hden) ?_)
    · refine le_trans ?_ (le_roundQuotient _ _)
      rw [Nat.le_div_iff_mul_le hden, mul_right_comm]
      exact Nat.mul_le_mul_right _ (Nat.div_mul_le_self num den)
    · by_cases hleast : exponentOf num den = leastExponent
      · have hplaces : 53 < s := by
          unfold leastExponent at hleast
          omega
        have hroom : 2 ^ 53 ≤ 2 ^ s - 1 :=
          Nat.le_sub_one_of_lt (Nat.pow_lt_pow_right (by decide) hplaces)
        exact .inr (hless.trans_le (Nat.mul_le_mul_left _ hroom))
      · exact .inl ⟨hnum, hmore hleast⟩

/-- The double nearest to a quotient of a numerator with at most 53 bits has the quotient's whole
part. -/
theorem exists_floor_nearest (hden : 0 < den) (hnum : num < 2 ^ 53) :
    ∃ x m e, nearest false num den = some x ∧ parts x = .finite false m e ∧
      floorParts false m e = (num / den : Nat) := by
  obtain ⟨k, r, s, hbits, hks, hr, hk, hwhole⟩ := exists_nearestBits hden hnum
  have hlt : k * 2 ^ 52 + r < 2047 * 2 ^ 52 := by omega
  obtain ⟨m, e, he, hparts, hunits⟩ := exists_parts_of_mantissa hr hk hlt
  refine ⟨_, m, e, ?_, hparts, ?_⟩
  · rw [nearest, hbits, if_pos (by simpa [infinityBits] using hlt)]
  · have hpoint : (2 : Int) ^ (-leastExponent).toNat = 2 ^ s * 2 ^ k := by
      rw [← pow_add]
      unfold leastExponent
      congr 1
      omega
    have hpos : (0 : Int) < 2 ^ k := by positivity
    rw [floorParts_eq he, hunits, hpoint, Int.mul_ediv_mul_of_pos_left _ _ hpos]
    exact_mod_cast hwhole

end Double

namespace Number

/-- Dividing a natural number of at most 53 bits by a positive integer and rounding down again
finds the integer quotient. -/
theorem floor_quotientOfInts {m n : Int} (hm : 0 ≤ m) (hlt : m < 2 ^ 53) (hn : 0 < n) :
    (quotientOfInts m n >>= floor) = .ok (m / n) := by
  obtain ⟨num, rfl⟩ := Int.eq_ofNat_of_zero_le hm
  obtain ⟨den, rfl⟩ := Int.eq_ofNat_of_zero_le hn.le
  obtain ⟨x, m, e, hx, hparts, hfloor⟩ :=
    @Double.exists_floor_nearest num den (by omega) (by omega)
  have hsign : (decide ((num : Int) < 0) != decide ((den : Int) < 0)) = false := by
    rw [decide_eq_false (by omega), decide_eq_false (by omega)]
    rfl
  rw [quotientOfInts, if_neg (by omega), hsign, Int.natAbs_natCast, Int.natAbs_natCast, hx, ok_bind,
    floor, toIntBy, hparts]
  dsimp only
  rw [hfloor]
  rfl

end Number

/-- Frames of at most 53 bits are divided exactly when the quotient is rounded down. -/
theorem Document.floor_div {m n : Int} (hm : 0 ≤ m) (hlt : m < 2 ^ 53) (hn : 0 < n) :
    (Arith.div (Document.int m) (.int n) >>= Arith.floor) = .ok (m / n) := by
  obtain ⟨q, hq, hfloor⟩ := bind_eq_ok_iff.mp (Number.floor_quotientOfInts hm hlt hn)
  have hdiv : Arith.div (Document.int m) (.int n) = .ok q.document := by
    change Number.document <$> Number.quotientOfInts m n = _
    rw [hq]
    rfl
  rw [hdiv, ok_bind]
  cases q <;> exact hfloor

end Showreel
