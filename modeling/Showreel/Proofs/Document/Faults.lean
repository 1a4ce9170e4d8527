import Showreel.Document.Operand
import Showreel.Proofs.Document.Shown
import Showreel.Proofs.Number.Quotient

/-!
# Faults of operands

Calculating with values and comparing them can fail in many ways: a value of the wrong kind, a
number too large, a division by zero, too many parts, too many digits. None of these is a rejection.
So where a rejection comes out of a computation on values, one of its own checks has made it.
-/

namespace Showreel

variable {p : Rejection → Prop}

/-! ## Numbers -/

namespace Number

theorem rejectsFor_doubleOfInt (n : Int) : RejectsFor p (doubleOfInt n) := by
  rw [doubleOfInt_eq]
  dsimp only
  cases hx : Double.ofInt n with
  | some x => exact .ok x
  | none => exact .error (by simp)

theorem rejectsFor_toDouble (a : Number) : RejectsFor p a.toDouble := by
  cases a with
  | int n => exact rejectsFor_doubleOfInt n
  | double x => exact .ok x

theorem rejectsFor_combine (whole : Int → Int → Int) (rounded : Float → Float → Float)
    (a b : Number) : RejectsFor p (combine whole rounded a b) := by
  match a, b with
  | .int m, .int n => exact .ok _
  | .int m, .double y => exact (rejectsFor_doubleOfInt m).bind fun _ => .ok _
  | .double x, .int n => exact (rejectsFor_doubleOfInt n).bind fun _ => .ok _
  | .double x, .double y => exact .ok _

theorem rejectsFor_quotientOfDoubles (x y : Float) : RejectsFor p (quotientOfDoubles x y) := by
  unfold quotientOfDoubles
  exact .ite (.error (by simp)) (.ok _)

theorem rejectsFor_quotientOfInts (m n : Int) : RejectsFor p (quotientOfInts m n) := by
  by_cases hn : n = 0
  · rw [quotientOfInts, if_pos hn]
    exact .error (by simp)
  · rw [quotientOfInts, if_neg hn]
    cases hx : Double.nearest (decide (m < 0) != decide (n < 0)) m.natAbs n.natAbs with
    | some x => exact .ok _
    | none => exact .error (by simp)

theorem rejectsFor_div (a b : Number) : RejectsFor p (a.div b) := by
  match a, b with
  | .int m, .int n => exact rejectsFor_quotientOfInts m n
  | .int m, .double y =>
    refine (rejectsFor_doubleOfInt m).bind fun x => ?_
    exact (rejectsFor_quotientOfDoubles x y).bind fun _ => .ok _
  | .double x, .int n =>
    refine (rejectsFor_doubleOfInt n).bind fun y => ?_
    exact (rejectsFor_quotientOfDoubles x y).bind fun _ => .ok _
  | .double x, .double y => exact (rejectsFor_quotientOfDoubles x y).bind fun _ => .ok _

end Number

/-! ## Values -/

namespace Document

theorem rejectsFor_onNumbers {β : Type} {op : Number → Number → Except Fault β}
    (h : ∀ a b, RejectsFor p (op a b)) (v w : Document) : RejectsFor p (onNumbers op v w) := by
  unfold onNumbers
  split
  · exact h _ _
  · exact .error (by simp)

theorem rejectsFor_calculate {op : Number → Number → Except Fault Number}
    (h : ∀ a b, RejectsFor p (op a b)) (v w : Document) : RejectsFor p (calculate op v w) := by
  unfold calculate
  split
  · exact (h _ _).map _
  · exact .error (by simp)

/-- Lists are compared by their items, so by induction on how values are nested. -/
theorem rejectsFor_compareBy (onNumber : Number → Number → Bool) (onOrder : Ordering → Bool)
    (v w : Document) : RejectsFor p (v.compareBy onNumber onOrder w) := by
  refine compareBy.induct (fun v w => RejectsFor p (v.compareBy onNumber onOrder w))
    (fun xs ys => RejectsFor p (compareItems onNumber onOrder xs ys)) ?_ ?_ ?_ ?_ ?_ ?_ v w
  · intro s t
    rw [compareBy]
    exact .ok _
  · intro xs ys ih
    rw [compareBy]
    exact ih
  · intro v w htexts hlists
    rw [compareBy.eq_3 _ _ _ _ htexts hlists]
    exact rejectsFor_onNumbers (fun _ _ => .ok _) v w
  · intro x xs y ys hsame ih
    rw [compareItems, if_pos hsame]
    exact ih
  · intro x xs y ys hdiffer ih
    rw [compareItems, if_neg hdiffer]
    exact ih
  · intro xs ys hend
    rw [compareItems.eq_2 _ _ _ _ hend]
    exact .ok _

theorem rejectsFor_lt (v w : Document) : RejectsFor p (Arith.lt v w) :=
  rejectsFor_compareBy _ _ v w

theorem rejectsFor_le (v w : Document) : RejectsFor p (Arith.le v w) :=
  rejectsFor_compareBy _ _ v w

theorem rejectsFor_add (v w : Document) : RejectsFor p (Arith.add v w) := by
  change RejectsFor p (add v w)
  unfold add
  split
  · exact .ok _
  · exact .ok _
  · exact rejectsFor_calculate (Number.rejectsFor_combine _ _) _ _

theorem rejectsFor_sub (v w : Document) : RejectsFor p (Arith.sub v w) :=
  rejectsFor_calculate (Number.rejectsFor_combine _ _) v w

theorem rejectsFor_div (v w : Document) : RejectsFor p (Arith.div v w) :=
  rejectsFor_calculate Number.rejectsFor_div v w

theorem rejectsFor_power (v : Document) (n : Nat) : RejectsFor p (Arith.power v n) := by
  change RejectsFor p (power v n)
  unfold power
  split
  · exact .ok _
  · exact .error (by simp)

theorem rejectsFor_partCount (n : Int) : RejectsFor p (partCount n) := by
  unfold partCount
  split
  · exact .error (by simp)
  · exact .ok _

theorem rejectsFor_textRepetition (length : Nat) (n : Int) :
    RejectsFor p (textRepetition length n) := by
  unfold textRepetition
  refine (rejectsFor_partCount n).bind fun count => ?_
  split
  · exact .error (by simp)
  · split
    · exact .error (by simp)
    · exact .ok count

theorem rejectsFor_listRepetition (length : Nat) (n : Int) :
    RejectsFor p (listRepetition length n) := by
  unfold listRepetition
  refine (rejectsFor_partCount n).bind fun count => ?_
  split
  · exact .error (by simp)
  · exact .ok count

theorem rejectsFor_repetition (v : Document) (n : Int) : RejectsFor p (v.repetition n) := by
  unfold repetition
  split
  · exact rejectsFor_textRepetition _ n
  · exact rejectsFor_listRepetition _ n
  · exact .error (by simp)

theorem rejectsFor_times (v : Document) (n : Int) : RejectsFor p (v.times n) := by
  refine (v.rejectsFor_repetition n).bind fun count => ?_
  split
  · exact .ok _
  · exact .ok _
  · exact .error (by simp)

theorem rejectsFor_mul (v w : Document) : RejectsFor p (Arith.mul v w) := by
  change RejectsFor p (mul v w)
  unfold mul
  split
  · exact (Number.rejectsFor_combine _ _ _ _).map _
  · exact rejectsFor_times _ _
  · exact rejectsFor_times _ _
  · exact .error (by simp)

theorem rejectsFor_widen (v : Document) : RejectsFor p (Arith.widen v) := by
  refine RejectsFor.map ?_ Document.double
  unfold toDouble
  split
  · split
    · exact .ok _
    · exact .error (by simp)
  · unfold withNumber
    split
    · exact Number.rejectsFor_toDouble _
    · exact .error (by simp)

theorem rejectsFor_quoted (v : Document) : RejectsFor p v.quoted := by
  intro cause h
  cases (writesUpTo_quoted v).fault_eq h

theorem rejectsFor_shown (v : Document) : RejectsFor p v.shown := by
  intro cause h
  cases (writesUpTo_shown v).fault_eq h

end Document

end Showreel
