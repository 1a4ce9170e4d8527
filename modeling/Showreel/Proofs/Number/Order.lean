import Mathlib
import Showreel.Number

/-!
# The order of numbers

Integers and doubles stand in one line: every finite double is a whole multiple of the smallest
positive one, and so is every integer. The place of a number is that multiple, between the places of
the two infinities; what is no number has no place. Numbers are compared by their places, whichever
way each of them is written, so their order has the laws of a linear one.
-/

namespace Showreel

namespace Double

open Float.Model UnpackedFloat

/-! ## Taking doubles apart -/

section Bits

variable (b : BitVec 64)

theorem toNat_mantissa : (@unpackMantissa .binary64 b).toNat = b.toNat % 2 ^ 52 := by
  simp [unpackMantissa]

theorem toNat_exponent :
    (@unpackExponent .binary64 b).toNat = b.toNat / 2 ^ 52 % 2 ^ 11 := by
  simp [unpackExponent, Nat.shiftRight_eq_div_pow]

theorem toNat_sign : (@unpackSign .binary64 b).toNat = b.toNat / 2 ^ 63 := by
  have hlt : b.toNat / 2 ^ 63 < 2 := Nat.div_lt_of_lt_mul b.isLt
  simpa [unpackSign, Nat.shiftRight_eq_div_pow] using Nat.mod_eq_of_lt hlt

/-- The sign of what is negative or not. -/
def sign (negative : Bool) : Sign := if negative then .negative else .positive

theorem sign_eq :
    Sign.ofBitVec (@unpackSign .binary64 b) = sign (decide (2 ^ 63 ≤ b.toNat)) := by
  have hlt : b.toNat < 2 ^ 64 := b.isLt
  have hzero : @unpackSign .binary64 b = 0#1 ↔ ¬ 2 ^ 63 ≤ b.toNat := by
    rw [← BitVec.toNat_inj, toNat_sign]
    simp
  unfold Sign.ofBitVec sign
  by_cases hb : 2 ^ 63 ≤ b.toNat
  · rw [if_neg (by rw [hzero]; exact not_not.mpr hb), decide_eq_true hb, if_pos rfl]
  · rw [if_pos (hzero.mpr hb), decide_eq_false hb]
    rfl

end Bits

/-- The number that doubles with the given parts unpack to. -/
inductive Unpacks : Parts → UnpackedFloat → Prop
  | nan : Unpacks .nan .notANumber
  | infinite (negative : Bool) : Unpacks (.infinite negative) (.infinity (sign negative))
  | zero (negative : Bool) : Unpacks (.finite negative 0 leastExponent) (.zero (sign negative))
  | finite (negative : Bool) {m : Nat} {e : Int} (hm : 0 < m) (hlt : m < 2 ^ 53)
      (he : leastExponent ≤ e) (hnormal : e = leastExponent ∨ 2 ^ 52 ≤ m) :
      Unpacks (.finite negative m e) (.finite (sign negative) m e hm)

theorem Unpacks.leastExponent_le {negative : Bool} {m : Nat} {e : Int} {u : UnpackedFloat}
    (h : Unpacks (.finite negative m e) u) : leastExponent ≤ e := by
  cases h with
  | zero => exact le_rfl
  | finite _ _ _ he _ => exact he

theorem Unpacks.of_eq {negative : Bool} {m m' : Nat} {e e' : Int} (hm' : 0 < m') (hm : m' = m)
    (hexp : e' = e) (hlt : m < 2 ^ 53) (he : leastExponent ≤ e)
    (hnormal : e = leastExponent ∨ 2 ^ 52 ≤ m) :
    Unpacks (.finite negative m e) (.finite (sign negative) m' e' hm') := by
  subst hm hexp
  exact .finite negative hm' hlt he hnormal

theorem unpacks_parts (x : Float) : Unpacks (parts x) x.toModel.unpack := by
  unfold parts Float.Model.unpack UnpackedFloat.unpack
  generalize hb : x.toModel.toBits.toBitVec = b
  have hbits : x.toBits.toNat = b.toNat := by rw [← hb]; rfl
  have hones : @unpackExponent .binary64 b = -1#_ ↔
      b.toNat / 2 ^ 52 % 2 ^ 11 = 2047 := by
    rw [← BitVec.toNat_inj, toNat_exponent]
    simp
  have hzeros : @unpackExponent .binary64 b = 0#_ ↔ b.toNat / 2 ^ 52 % 2 ^ 11 = 0 := by
    rw [← BitVec.toNat_inj, toNat_exponent]
    simp
  have hlow : @unpackMantissa .binary64 b = 0#_ ↔ b.toNat % 2 ^ 52 = 0 := by
    rw [← BitVec.toNat_inj, toNat_mantissa]
    simp
  have hmantissa : b.toNat % 2 ^ 52 < 2 ^ 52 := Nat.mod_lt _ (by decide)
  have hbias : (Format.binary64.exponentBias : Int) + (52 : Nat) = 1075 := rfl
  simp only [hbits, Nat.pow_eq, sign_eq, hones, hzeros, hlow, hbias]
  split
  case isTrue =>
    split
    · exact .infinite _
    · exact .nan
  case isFalse =>
    split
    case isTrue hzero =>
      split
      case isTrue hnone =>
        rw [hnone]
        exact .zero _
      case isFalse hsome =>
        refine .of_eq _ (toNat_mantissa b) ?_ (by omega) (by decide) (.inl rfl)
        rw [toNat_exponent, hzero]
        rfl
    case isFalse hnormal =>
      refine .of_eq _ ?_ ?_ (by omega) ?_ (.inr (by omega))
      · have happend := Nat.two_pow_add_eq_or_of_lt hmantissa 1
        rw [BitVec.toNat_append, toNat_mantissa, Nat.add_comm]
        exact happend.symm
      · rw [toNat_exponent]
        unfold leastExponent
        omega
      · unfold leastExponent
        omega

/-- A finite double in units of the smallest positive one. -/
def units (negative : Bool) (m : Nat) (e : Int) : Int :=
  signed negative m * 2 ^ (e - leastExponent).toNat

/-- The place of a double among all numbers, in units of the smallest positive one; what is no
number has none. -/
def Parts.place : Parts → Option (WithBotTop Int)
  | .nan => none
  | .infinite negative => some (if negative then ⊥ else ⊤)
  | .finite negative m e => some (units negative m e)

/-- A mantissa with a larger exponent is of full length, so it outweighs any other one. -/
theorem compares_scaled {m n : Nat} {d e : Int} (hm : m < 2 ^ 53) (hn : n < 2 ^ 53)
    (hd : leastExponent ≤ d) (he : leastExponent ≤ e) (hd' : d = leastExponent ∨ 2 ^ 52 ≤ m)
    (he' : e = leastExponent ∨ 2 ^ 52 ≤ n) :
    ((compare d e).then (compare m n)).Compares
      ((m : Int) * 2 ^ (d - leastExponent).toNat) (n * 2 ^ (e - leastExponent).toNat) := by
  obtain ⟨i, rfl⟩ : ∃ i : Nat, d = leastExponent + i := ⟨(d - leastExponent).toNat, by omega⟩
  obtain ⟨j, rfl⟩ : ∃ j : Nat, e = leastExponent + j := ⟨(e - leastExponent).toNat, by omega⟩
  simp only [add_sub_cancel_left, Int.toNat_natCast]
  have hlarger : ∀ {m n i j : Nat}, m < 2 ^ 53 → 2 ^ 52 ≤ n → i < j →
      (m : Int) * 2 ^ i < n * 2 ^ j := by
    intro m n i j hm hn hij
    have hpos := Nat.two_pow_pos i
    have hlt : m * 2 ^ i < n * 2 ^ j := by
      calc m * 2 ^ i < 2 ^ 53 * 2 ^ i := by gcongr
        _ = 2 ^ 52 * 2 ^ (i + 1) := by ring
        _ ≤ n * 2 ^ j := by gcongr <;> omega
    exact_mod_cast hlt
  rcases lt_trichotomy i j with h | rfl | h
  · have hlt : compare (leastExponent + i) (leastExponent + j) = .lt :=
      compare_lt_iff_lt.mpr (by omega)
    rw [hlt]
    exact hlarger hm (he'.resolve_left (by omega)) h
  · have hpos : (0 : Int) < 2 ^ i := by positivity
    have heq : compare (leastExponent + i) (leastExponent + i) = .eq :=
      compare_eq_iff_eq.mpr rfl
    rw [heq]
    rcases lt_trichotomy m n with h | rfl | h
    · rw [compare_lt_iff_lt.mpr h]
      exact Int.mul_lt_mul_of_pos_right (by exact_mod_cast h) hpos
    · rw [compare_eq_iff_eq.mpr rfl]
      rfl
    · rw [compare_gt_iff_gt.mpr h]
      exact Int.mul_lt_mul_of_pos_right (by exact_mod_cast h) hpos
  · have hgt : compare (leastExponent + i) (leastExponent + j) = .gt :=
      compare_gt_iff_gt.mpr (by omega)
    rw [hgt]
    exact hlarger hn (hd'.resolve_left (by omega)) h

/-- Finite doubles are compared by their units. -/
theorem compares_units {negative negative' : Bool} {m m' : Nat} {e e' : Int} {u v : UnpackedFloat}
    (hu : Unpacks (.finite negative m e) u) (hv : Unpacks (.finite negative' m' e') v) :
    ∃ o, u.compare v = some o ∧ o.Compares (units negative m e) (units negative' m' e') := by
  have hnonneg : (0 : Int) ≤ m * 2 ^ (e - leastExponent).toNat := by positivity
  have hnonneg' : (0 : Int) ≤ m' * 2 ^ (e' - leastExponent).toNat := by positivity
  unfold units signed
  cases hu with
  | zero =>
    cases hv with
    | zero => exact ⟨.eq, rfl, by simp⟩
    | finite _ hm' =>
      have hpos : (0 : Int) < m' * 2 ^ (e' - leastExponent).toNat := by positivity
      cases negative' with
      | false => exact ⟨.lt, rfl, by simpa using hm'⟩
      | true => exact ⟨.gt, rfl, by simpa using hm'⟩
  | finite _ hm hlt he hnormal =>
    have hpos : (0 : Int) < m * 2 ^ (e - leastExponent).toNat := by positivity
    cases hv with
    | zero =>
      cases negative with
      | false => exact ⟨.gt, rfl, by simpa using hm⟩
      | true => exact ⟨.lt, rfl, by simpa using hm⟩
    | finite _ hm' hlt' he' hnormal' =>
      have hpos' : (0 : Int) < m' * 2 ^ (e' - leastExponent).toNat := by positivity
      have hsame := compares_scaled hlt hlt' he he' hnormal hnormal'
      generalize ho : (compare e e').then (compare m m') = o at hsame
      cases negative <;> cases negative'
      · exact ⟨o, congrArg some ho, hsame⟩
      · exact ⟨.gt, rfl, by simp; linarith⟩
      · exact ⟨.lt, rfl, by simp; linarith⟩
      · refine ⟨o.swap, congrArg some (congrArg Ordering.swap ho), ?_⟩
        cases o <;> simpa [Ordering.swap] using hsame

theorem bot_lt_coe (k : Int) : ⊥ < (k : WithBotTop Int) := WithBot.bot_lt_coe _

theorem coe_lt_top (k : Int) : (k : WithBotTop Int) < ⊤ :=
  WithBot.coe_lt_coe.mpr (WithTop.coe_lt_top k)

theorem compares_coe_iff {o : Ordering} {j k : Int} :
    o.Compares (j : WithBotTop Int) (k : WithBotTop Int) ↔ o.Compares j k := by
  cases o with
  | lt => exact WithBotTop.coe_lt_coe
  | eq => exact WithBotTop.coe_injective.eq_iff
  | gt => exact WithBotTop.coe_lt_coe

/-- Doubles are compared by their places. -/
theorem exists_compare {p q : Parts} {u v : UnpackedFloat} (hu : Unpacks p u) (hv : Unpacks q v)
    {r s : WithBotTop Int} (hp : p.place = some r) (hq : q.place = some s) :
    ∃ o, u.compare v = some o ∧ o.Compares r s := by
  match p, q, hp, hq with
  | .infinite negative, .infinite negative', rfl, rfl =>
    cases hu
    cases hv
    cases negative <;> cases negative' <;>
      exact ⟨_, rfl, by simp [Ordering.Compares, sign, compare]⟩
  | .infinite negative, .finite negative' m e, rfl, rfl =>
    cases hu
    cases hv <;> cases negative <;>
      first | exact ⟨.lt, rfl, bot_lt_coe _⟩ | exact ⟨.gt, rfl, coe_lt_top _⟩
  | .finite negative m e, .infinite negative', rfl, rfl =>
    cases hv
    cases hu <;> cases negative' <;>
      first | exact ⟨.lt, rfl, coe_lt_top _⟩ | exact ⟨.gt, rfl, bot_lt_coe _⟩
  | .finite negative m e, .finite negative' m' e', rfl, rfl =>
    obtain ⟨o, ho, hcompares⟩ := compares_units hu hv
    exact ⟨o, ho, compares_coe_iff.mpr hcompares⟩

/-- Doubles are compared by their places, which only what is a number has. -/
theorem compare_eq_some_iff {p q : Parts} {u v : UnpackedFloat} (hu : Unpacks p u)
    (hv : Unpacks q v) {o : Ordering} :
    u.compare v = some o ↔ ∃ r s, p.place = some r ∧ q.place = some s ∧ o.Compares r s := by
  constructor
  · intro h
    obtain ⟨r, s, hp, hq⟩ : ∃ r s, p.place = some r ∧ q.place = some s := by
      cases hu <;> cases hv <;> first | exact ⟨_, _, rfl, rfl⟩ | cases h
    obtain ⟨o', ho', hcompares⟩ := exists_compare hu hv hp hq
    obtain rfl : o = o' := Option.some.inj (h.symm.trans ho')
    exact ⟨r, s, hp, hq, hcompares⟩
  · rintro ⟨r, s, hp, hq, hcompares⟩
    obtain ⟨o', ho', hcompares'⟩ := exists_compare hu hv hp hq
    rw [ho', hcompares'.inj hcompares]

/-- The order of the values of two doubles. -/
def compareDoubles (x y : Float) : Option Ordering := x.toModel.unpack.compare y.toModel.unpack

theorem compareDoubles_eq_some_iff {x y : Float} {o : Ordering} :
    compareDoubles x y = some o ↔
      ∃ r s, (parts x).place = some r ∧ (parts y).place = some s ∧ o.Compares r s :=
  compare_eq_some_iff (unpacks_parts x) (unpacks_parts y)

theorem compareDoubles_eq_gt_iff {x y : Float} :
    compareDoubles x y = some .gt ↔ compareDoubles y x = some .lt := by
  rw [compareDoubles_eq_some_iff, compareDoubles_eq_some_iff]
  constructor
  · rintro ⟨r, s, hr, hs, hgt⟩
    exact ⟨s, r, hs, hr, hgt⟩
  · rintro ⟨s, r, hs, hr, hlt⟩
    exact ⟨r, s, hr, hs, hlt⟩

theorem lt_iff {x y : Float} : x < y ↔ compareDoubles x y = some .lt := by
  show decide (x.toModel < y.toModel) = true ↔ _
  rw [decide_eq_true_iff]
  exact beq_iff_eq (α := Option Ordering)

theorem lt_iff' {x y : Float} : y < x ↔ compareDoubles x y = some .gt :=
  lt_iff.trans compareDoubles_eq_gt_iff.symm

theorem beq_iff {x y : Float} : (x == y) = true ↔ compareDoubles x y = some .eq :=
  beq_iff_eq (α := Option Ordering)

theorem le_iff {x y : Float} :
    x ≤ y ↔ compareDoubles x y = some .lt ∨ compareDoubles x y = some .eq := by
  show decide (x.toModel ≤ y.toModel) = true ↔ _
  rw [decide_eq_true_iff]
  show (compareDoubles x y).any (·.isLE) = true ↔ _
  cases compareDoubles x y with
  | none => simp
  | some o => cases o <;> simp

end Double

namespace Number

open Double

/-- The place of a number among all numbers, in units of the smallest positive double. -/
def place : Number → Option (WithBotTop Int)
  | .int n => some (n * 2 ^ (-leastExponent).toNat : Int)
  | .double x => (parts x).place

theorem compares_mul_iff {o : Ordering} {j k c : Int} (hc : 0 < c) :
    o.Compares (j * c) (k * c) ↔ o.Compares j k := by
  cases o with
  | lt => exact Int.mul_lt_mul_right hc
  | eq => exact Int.mul_eq_mul_right_iff hc.ne'
  | gt => exact Int.mul_lt_mul_right hc

theorem compareInt_eq_some_iff {m : Int} {y : Float} {o : Ordering} :
    compareInt m y = some o ↔
      ∃ r s, (int m).place = some r ∧ (double y).place = some s ∧ o.Compares r s := by
  have hy := unpacks_parts y
  unfold compareInt
  show _ ↔ ∃ r s, some _ = some r ∧ (parts y).place = some s ∧ _
  generalize parts y = p at hy
  generalize y.toModel.unpack = u at hy
  simp only [Option.some.injEq, exists_and_left, ↓existsAndEq, true_and]
  cases p with
  | nan => simp [Parts.place]
  | infinite negative =>
    have hbot := bot_lt_coe (m * 2 ^ (-leastExponent).toNat)
    have htop := coe_lt_top (m * 2 ^ (-leastExponent).toNat)
    cases negative <;> cases o <;> simp [Parts.place, Ordering.Compares, hbot, htop]
  | finite negative n e =>
    have he : leastExponent ≤ e := hy.leastExponent_le
    have hpos : (0 : Int) < 2 ^ (-leastExponent - (-e).toNat).toNat := by positivity
    have hint : m * 2 ^ (-leastExponent).toNat =
        m * Int.pow 2 (-e).toNat * 2 ^ (-leastExponent - (-e).toNat).toNat := by
      rw [Int.pow_eq, mul_assoc, ← pow_add]
      congr 2
      unfold leastExponent at he ⊢
      omega
    have hunits : units negative n e =
        signed negative n * Int.pow 2 e.toNat * 2 ^ (-leastExponent - (-e).toNat).toNat := by
      rw [units, Int.pow_eq, mul_assoc, ← pow_add]
      congr 2
      unfold leastExponent at he ⊢
      omega
    simp only [Parts.place, Option.some.injEq, ↓existsAndEq, true_and, compares_coe_iff,
      compare_iff]
    rw [hint, hunits, compares_mul_iff hpos]

theorem order_doubles (x y : Float) : (double x).order (double y) = compareDoubles x y := by
  have hlt : x < y ↔ _ := lt_iff
  have hgt : y < x ↔ _ := lt_iff'
  simp only [order, hlt, beq_iff, hgt]
  cases h : compareDoubles x y with
  | none => rfl
  | some o => cases o <;> rfl

theorem order_eq_some_iff {a b : Number} {o : Ordering} :
    a.order b = some o ↔ ∃ r s, a.place = some r ∧ b.place = some s ∧ o.Compares r s := by
  cases a with
  | int m =>
    cases b with
    | int n =>
      have hpos : (0 : Int) < 2 ^ (-leastExponent).toNat := by positivity
      simp only [order, place, Option.some.injEq, ↓existsAndEq, true_and, compares_coe_iff,
        compare_iff, compares_mul_iff hpos, exists_and_left]
    | double y => exact compareInt_eq_some_iff
  | double x =>
    cases b with
    | int n =>
      have hswap : (double x).order (int n) = some o ↔ compareInt n x = some o.swap := by
        simp only [order, Option.map_eq_some_iff]
        constructor
        · rintro ⟨o', ho', rfl⟩
          rw [Ordering.swap_swap]
          exact ho'
        · exact fun h => ⟨o.swap, h, Ordering.swap_swap⟩
      rw [hswap, compareInt_eq_some_iff]
      simp only [Ordering.compares_swap]
      constructor
      · rintro ⟨r, s, hr, hs, hcompares⟩
        exact ⟨s, r, hs, hr, hcompares⟩
      · rintro ⟨s, r, hs, hr, hcompares⟩
        exact ⟨r, s, hr, hs, hcompares⟩
    | double y =>
      rw [order_doubles]
      exact compareDoubles_eq_some_iff

theorem lt_iff {a b : Number} :
    a.lt b = true ↔ ∃ r s, a.place = some r ∧ b.place = some s ∧ r < s := by
  rw [lt, beq_iff_eq]
  exact order_eq_some_iff

theorem le_iff {a b : Number} :
    a.le b = true ↔ ∃ r s, a.place = some r ∧ b.place = some s ∧ r ≤ s := by
  simp only [le, Bool.or_eq_true, beq_iff_eq, order_eq_some_iff, le_iff_lt_or_eq]
  constructor
  · rintro (⟨r, s, hr, hs, h⟩ | ⟨r, s, hr, hs, h⟩)
    · exact ⟨r, s, hr, hs, .inl h⟩
    · exact ⟨r, s, hr, hs, .inr h⟩
  · rintro ⟨r, s, hr, hs, h | h⟩
    · exact .inl ⟨r, s, hr, hs, h⟩
    · exact .inr ⟨r, s, hr, hs, h⟩

theorem le_of_lt {a b : Number} (h : a.lt b = true) : a.le b = true := by
  obtain ⟨r, s, hr, hs, hrs⟩ := lt_iff.mp h
  exact le_iff.mpr ⟨r, s, hr, hs, hrs.le⟩

theorem le_trans {a b c : Number} (hab : a.le b = true) (hbc : b.le c = true) :
    a.le c = true := by
  obtain ⟨r, s, hr, hs, hrs⟩ := le_iff.mp hab
  obtain ⟨s', t, hs', ht, hst⟩ := le_iff.mp hbc
  obtain rfl : s = s' := Option.some.inj (hs.symm.trans hs')
  exact le_iff.mpr ⟨r, t, hr, ht, hrs.trans hst⟩

/-- What is above a number is above everything that is at most that number. -/
theorem lt_of_le_of_lt {a b c : Number} (hab : a.le b = true) (hbc : b.lt c = true) :
    a.lt c = true := by
  obtain ⟨r, s, hr, hs, hrs⟩ := le_iff.mp hab
  obtain ⟨s', t, hs', ht, hst⟩ := lt_iff.mp hbc
  obtain rfl : s = s' := Option.some.inj (hs.symm.trans hs')
  exact lt_iff.mpr ⟨r, t, hr, ht, hrs.trans_lt hst⟩

end Number

end Showreel
