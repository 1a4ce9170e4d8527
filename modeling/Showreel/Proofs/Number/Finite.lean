import Showreel.Proofs.Number.Order

/-!
# Finite doubles

A double made of bits is read as it was written, and it is finite, unless its exponent is the
largest one. The double nearest to a quotient is made of such bits, so it can be rounded to an
integer.
-/

namespace Showreel.Double

open Float.Model UnpackedFloat

theorem exponent_eq_ones_iff {b : BitVec 64} :
    @unpackExponent .binary64 b = -1#_ ↔ b.toNat / 2 ^ 52 % 2 ^ 11 = 2047 := by
  rw [← BitVec.toNat_inj, toNat_exponent]
  simp

/-- A double that is written with less than the largest exponent is read as it was written. -/
theorem toBits_ofBits {u : UInt64} (h : u.toNat / 2 ^ 52 % 2 ^ 11 ≠ 2047) :
    (Float.ofBits u).toBits = u := by
  have hvalid : Format.binary64.Valid u.toBitVec :=
    ⟨fun hones => absurd (exponent_eq_ones_iff.mp hones) h⟩
  exact UInt64.toBitVec_inj.mp (pack_unpack_of_valid hvalid)

/-- A double that is written with less than the largest exponent is finite. -/
theorem exists_parts_ofBits {u : UInt64} (h : u.toNat / 2 ^ 52 % 2 ^ 11 ≠ 2047) :
    ∃ negative m e, parts (Float.ofBits u) = .finite negative m e := by
  unfold parts
  simp only [Nat.pow_eq, toBits_ofBits h, if_neg h]
  split
  · exact ⟨_, _, _, rfl⟩
  · exact ⟨_, _, _, rfl⟩

theorem exists_nearestBits_eq (negative : Bool) (num den : Nat) :
    ∃ r, nearestBits negative num den = (if negative then 2 ^ 63 else 0) + r := by
  unfold nearestBits
  simp only [Nat.pow_eq]
  split
  · exact ⟨0, rfl⟩
  · exact ⟨_, Nat.add_assoc _ _ _⟩

/-- The double nearest to a quotient is finite. -/
theorem exists_parts_of_nearest {negative : Bool} {num den : Nat} {x : Float}
    (h : nearest negative num den = some x) : ∃ negative m e, parts x = .finite negative m e := by
  have hlt : nearestBits negative num den < infinityBits negative := by
    by_contra hge
    rw [nearest, if_neg hge] at h
    cases h
  rw [nearest, if_pos hlt] at h
  cases h
  obtain ⟨r, hr⟩ := exists_nearestBits_eq negative num den
  refine exists_parts_ofBits ?_
  rw [UInt64.toNat_ofNat', hr]
  rw [hr, infinityBits, Nat.pow_eq, Nat.pow_eq] at hlt
  cases negative
  · simp only [Bool.false_eq_true, ↓reduceIte] at hlt ⊢
    omega
  · simp only [↓reduceIte] at hlt ⊢
    omega

end Showreel.Double
