import Showreel.Proofs.Number.Finite
import Showreel.Proofs.Number.Quotient

/-!
# Numbers that are not too large

Arithmetic on values fails when an integer meets a double that is nowhere near it. Integers of at
most 64 bits always have a double near them, so they can be mixed with doubles, and their quotients
can be rounded again.
-/

namespace Showreel.Document

/-- A double, or an integer of at most so many bits. -/
inductive IsWithin (bits : Nat) : Document → Prop
  | int {n : Int} (h : n.natAbs < 2 ^ bits) : IsWithin bits (.int n)
  | double (x : Float) : IsWithin bits (.double x)

theorem withNumber_int {β : Type} (f : Number → Except Fault β) (n : Int) :
    (Document.int n).withNumber f = f (.int n) := rfl

theorem toDouble_int (n : Int) : (Document.int n).toDouble = Number.doubleOfInt n :=
  calc (Document.int n).toDouble = (Document.int n).withNumber Number.toDouble := rfl
    _ = Number.toDouble (.int n) := withNumber_int _ n
    _ = Number.doubleOfInt n := rfl

namespace IsWithin

variable {v w : Document}

theorem exists_widen (h : v.IsWithin 64) : ∃ x, Arith.widen v = .ok (.double x) := by
  cases h with
  | @int n hn =>
    obtain ⟨x, hx⟩ := Number.exists_doubleOfInt hn
    have hwiden : Arith.widen (Document.int n) =
        Document.double <$> (Document.int n).toDouble := rfl
    exact ⟨x, by rw [hwiden, toDouble_int, hx]; rfl⟩
  | double x => exact ⟨x, rfl⟩

theorem exists_mul (h : v.IsWithin 64) (y : Float) :
    ∃ x, Arith.mul v (.double y) = .ok (.double x) := by
  cases h with
  | int hn =>
    obtain ⟨x, hx⟩ := Number.exists_doubleOfInt hn
    refine ⟨x * y, ?_⟩
    change Number.document <$> (Number.doubleOfInt _ >>= fun x => _) = _
    rw [hx]
    rfl
  | double x => exact ⟨x * y, rfl⟩

theorem exists_add (h : v.IsWithin 64) (y : Float) :
    ∃ x, Arith.add v (.double y) = .ok (.double x) := by
  cases h with
  | int hn =>
    obtain ⟨x, hx⟩ := Number.exists_doubleOfInt hn
    refine ⟨x + y, ?_⟩
    change Number.document <$> (Number.doubleOfInt _ >>= fun x => _) = _
    rw [hx]
    rfl
  | double x => exact ⟨x + y, rfl⟩

theorem mono {bits bits' : Nat} (h : v.IsWithin bits) (hle : bits ≤ bits') : v.IsWithin bits' := by
  cases h with
  | int hn => exact .int (hn.trans_le (Nat.pow_le_pow_right (by decide) hle))
  | double x => exact .double x

theorem exists_double_sub (hw : w.IsWithin 64) (x : Float) :
    ∃ z, Arith.sub (.double x) w = .ok (.double z) := by
  cases hw with
  | int hn =>
    obtain ⟨y, hy⟩ := Number.exists_doubleOfInt hn
    refine ⟨x - y, ?_⟩
    change Number.document <$> (Number.doubleOfInt _ >>= fun y => _) = _
    rw [hy]
    rfl
  | double y => exact ⟨x - y, rfl⟩

theorem exists_sub_double (hv : v.IsWithin 64) (y : Float) :
    ∃ z, Arith.sub v (.double y) = .ok (.double z) := by
  cases hv with
  | int hn =>
    obtain ⟨x, hx⟩ := Number.exists_doubleOfInt hn
    refine ⟨x - y, ?_⟩
    change Number.document <$> (Number.doubleOfInt _ >>= fun x => _) = _
    rw [hx]
    rfl
  | double x => exact ⟨x - y, rfl⟩

/-- A difference needs one bit more. -/
theorem exists_sub (hv : v.IsWithin 63) (hw : w.IsWithin 63) :
    ∃ u, Arith.sub v w = .ok u ∧ u.IsWithin 64 := by
  cases hv with
  | double x =>
    obtain ⟨z, hz⟩ := (hw.mono (by decide)).exists_double_sub x
    exact ⟨_, hz, .double z⟩
  | @int m hm =>
    cases hw with
    | @int n hn => exact ⟨_, rfl, .int (show (m - n).natAbs < 2 ^ 64 by omega)⟩
    | double y =>
      obtain ⟨z, hz⟩ := (IsWithin.int hm).mono (show 63 ≤ 64 by decide) |>.exists_sub_double y
      exact ⟨_, hz, .double z⟩

end IsWithin

/-- The quotient of two integers can be rounded. -/
theorem exists_floor_div {m n : Int} (h : m.natAbs < n.natAbs * 2 ^ 64) :
    ∃ k, (Arith.div (Document.int m) (.int n) >>= Arith.floor) = .ok k := by
  obtain ⟨x, hx, negative, hnearest⟩ := Number.exists_quotientOfInts h
  obtain ⟨negative', m', e', hparts⟩ := Double.exists_parts_of_nearest hnearest
  have hdiv : Arith.div (Document.int m) (.int n) = .ok (.double x) := by
    change Number.document <$> Number.quotientOfInts m n = _
    rw [hx]
    rfl
  refine ⟨Double.floorParts negative' m' e', ?_⟩
  rw [hdiv, ok_bind]
  change (Number.double x).floor = _
  rw [Number.floor, Number.toIntBy, hparts]

end Showreel.Document
