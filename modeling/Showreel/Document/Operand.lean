import Showreel.Arith
import Showreel.Document
import Showreel.Text.Template

/-!
# Values as operands

Any value of a document may stand where a number is expected. Numbers are calculated with, and truth
values count as one and zero; text and lists can be joined, repeated and compared among themselves;
everything else fails when it is used. Times are measured in doubles.

These are the built-in operators `+`, `-`, `*`, `/`, `%` and the comparisons, with `floor`, `round`,
`float` and what may count as an index, on any pair of built-in values.
-/

namespace Showreel

namespace Document

@[inline] def onNumbers {β : Type} (op : Number → Number → Except Fault β) (v w : Document) :
    Except Fault β :=
  match v.number?, w.number? with
  | some x, some y => op x y
  | _, _ => .error .wrongType

@[inline] def calculate (op : Number → Number → Except Fault Number) (v w : Document) :
    Except Fault Document :=
  match v.number?, w.number? with
  | some x, some y => Number.document <$> op x y
  | _, _ => .error .wrongType

/-- The sum of numbers; texts and lists are joined. -/
def add : Document → Document → Except Fault Document
  | .text s, .text t => .ok (.text (s ++ t))
  | .list xs, .list ys => .ok (.list (xs ++ ys))
  | v, w => calculate Number.add v w

def sub (v w : Document) : Except Fault Document := calculate Number.sub v w

/-- The bound of counts and of the lengths of texts. -/
def countLimit : Nat := Nat.pow 2 63

/-- How many parts an integer counts, none if it is below zero; it must fit into 64 bits. -/
def partCount (n : Int) : Except Fault Nat :=
  if n < -(countLimit : Int) ∨ (countLimit : Int) ≤ n then .error .overflow else .ok n.toNat

/-- How often a text is repeated that has some length. -/
def textRepetition (length : Nat) (n : Int) : Except Fault Nat := do
  let count ← partCount n
  if countLimit ≤ length * count then .error .overflow
  else if roomFor ≤ length * count then .error .outOfMemory
  else return count

/-- How often a list is repeated that has some length; an item takes the room of eight
characters. -/
def listRepetition (length : Nat) (n : Int) : Except Fault Nat := do
  let count ← partCount n
  if roomFor ≤ 8 * (length * count) then .error .outOfMemory else return count

/-- A sequence so many times over. -/
def repeated {β : Type} (xs : List β) (count : Nat) : List β :=
  if xs.isEmpty then [] else (List.replicate count xs).flatten

/-- How often a text or a list is repeated by an integer. -/
def repetition (v : Document) (n : Int) : Except Fault Nat :=
  match v with
  | .text s => textRepetition s.length n
  | .list xs => listRepetition xs.length n
  | _ => .error .wrongType

/-- A text or a list so many times over. -/
def times (v : Document) (n : Int) : Except Fault Document := do
  let count ← v.repetition n
  match v with
  | .text s => return .text (String.ofList (repeated s.toList count))
  | .list xs => return .list (repeated xs count)
  | _ => .error .wrongType

/-- The product of numbers; a text or a list is repeated by an integer. -/
def mul (v w : Document) : Except Fault Document :=
  match v.number?, w.number? with
  | some x, some y => Number.document <$> Number.mul x y
  | none, some (.int n) => v.times n
  | some (.int n), none => w.times n
  | _, _ => .error .wrongType

/-- The integer nearest to a product of numbers; other products are not numbers, even if they
exist. -/
def roundProduct (v w : Document) : Except Fault Int :=
  match v.number?, w.number? with
  | some x, some y => do (← Number.mul x y).round
  | none, some (.int n) => do
    let _ ← v.repetition n
    .error .wrongType
  | some (.int n), none => do
    let _ ← w.repetition n
    .error .wrongType
  | _, _ => .error .wrongType

def div (v w : Document) : Except Fault Document := calculate Number.div v w

/-- The remainder of numbers with the divisor's sign. A text is a template for the divisor: it may
be a bad one, and a filled one is no remainder. -/
def modulo (v w : Document) : Except Fault Document :=
  match v with
  | .text s => do
    Text.Template.check s
    .error .wrongType
  | v => calculate Number.modulo v w

def power (v : Document) (n : Nat) : Except Fault Document :=
  match v.number? with
  | some x => .ok (x.power n).document
  | none => .error .wrongType

def withNumber {β : Type} (f : Number → Except Fault β) (v : Document) : Except Fault β :=
  match v.number? with
  | some x => f x
  | none => .error .wrongType

def floor (v : Document) : Except Fault Int := v.withNumber Number.floor

/-- The integer nearest to a number, a tie going to the even one. -/
def round (v : Document) : Except Fault Int := v.withNumber Number.round

/-- A value that counts something; a double never does. -/
def index (v : Document) : Except Fault Int :=
  match v.number? with
  | some (.int n) => .ok n
  | _ => .error .wrongType

/-- The double that a value writes or is nearest to. -/
def toDouble (v : Document) : Except Fault Float :=
  match v with
  | .text s =>
    match Text.real? s with
    | some x => .ok x
    | none => .error .badValue
  | v => v.withNumber Number.toDouble

def textOrder (s t : String) : Ordering := if s < t then .lt else if s = t then .eq else .gt

mutual

/-- Compares by a test on numbers and one on the order of what has the same kind: text by its code
points, lists by the first items that differ and then by their lengths. -/
def compareBy (onNumber : Number → Number → Bool) (onOrder : Ordering → Bool) :
    Document → Document → Except Fault Bool
  | .text s, .text t => .ok (onOrder (textOrder s t))
  | .list xs, .list ys => compareItems onNumber onOrder xs ys
  | v, w => onNumbers (fun x y => .ok (onNumber x y)) v w

/-- Compares lists by the first items that differ, then by their lengths. -/
def compareItems (onNumber : Number → Number → Bool) (onOrder : Ordering → Bool) :
    List Document → List Document → Except Fault Bool
  | x :: xs, y :: ys =>
    if x.equal y then compareItems onNumber onOrder xs ys else x.compareBy onNumber onOrder y
  | xs, ys => .ok (onOrder (compare xs.length ys.length))

end

def lt (v w : Document) : Except Fault Bool := v.compareBy Number.lt (· == .lt) w

def le (v w : Document) : Except Fault Bool := v.compareBy Number.le (· != .gt) w

instance : OfScientific Document where
  ofScientific m negative e := .double (OfScientific.ofScientific m negative e)

instance : BEq Document := ⟨equal⟩

instance : Arith Document where
  ofInt := .int
  lt := lt
  le := le
  widen v := .double <$> v.toDouble
  add := add
  sub := sub
  mul := mul
  div := div
  modulo := modulo
  power := power
  floor := floor
  isKey := isKey
  shown := shown
  quoted := quoted

end Document

namespace Double

/-- The square root, for which a double must not be negative. -/
def sqrt (x : Float) : Except Fault Float :=
  if x < 0.0 then .error .badValue else .ok x.sqrt

/-- The exponential; that of a finite double must not exceed the doubles. -/
def exp (x : Float) : Except Fault Float :=
  let y := x.exp
  if y.isInf && !x.isInf then .error .overflow else .ok y

/-- Applies a periodic function, which has no value at an infinity. -/
@[inline] def periodic (f : Float → Float) (x : Float) : Except Fault Float :=
  if x.isInf then .error .badValue else .ok (f x)

instance : Analytic Float where
  decidableLT := inferInstance
  decidableLE := inferInstance
  quotient := Number.quotientOfDoubles
  sqrt := sqrt
  exp := exp
  sin := periodic Float.sin
  cos := periodic Float.cos
  magnitude := Float.abs

end Double

instance : Measured Document Float where
  measure := Document.withNumber Number.toDouble
  ofMeasure := .double

end Showreel
