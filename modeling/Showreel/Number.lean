import Showreel.Fault
import Showreel.Number.Decimal

/-!
# Numbers

Numbers are integers of any size and doubles. Integers stay exact as long as only integers meet; a
quotient is always a double, correctly rounded. An integer that meets a double becomes one, which
fails when it is too large. Comparisons are exact between all of them, and a double that is no
number is below, above and equal to nothing.

These are the built-in `int` and `float`, with `+`, `-`, `*`, `/`, `%`, `**`, the comparisons,
`floor` and `round`.
-/

namespace Showreel

inductive Number where
  | int (n : Int)
  | double (x : Float)

namespace Number

def doubleOfInt (n : Int) : Except Fault Float :=
  match Double.ofInt n with
  | some x => .ok x
  | none => .error .overflow

def toDouble : Number → Except Fault Float
  | .int n => doubleOfInt n
  | .double x => .ok x

/-- Integers are combined exactly, everything else as doubles. -/
@[inline] def combine (exact : Int → Int → Int) (rounded : Float → Float → Float) :
    Number → Number → Except Fault Number
  | .int m, .int n => .ok (.int (exact m n))
  | .int m, .double y => do return .double (rounded (← doubleOfInt m) y)
  | .double x, .int n => do return .double (rounded x (← doubleOfInt n))
  | .double x, .double y => .ok (.double (rounded x y))

def add (a b : Number) : Except Fault Number := combine (· + ·) (· + ·) a b

def sub (a b : Number) : Except Fault Number := combine (· - ·) (· - ·) a b

def mul (a b : Number) : Except Fault Number := combine (· * ·) (· * ·) a b

/-- The double nearest to a quotient of integers; zero over a negative number is the negative
zero. -/
def quotientOfInts (m n : Int) : Except Fault Number :=
  if n = 0 then .error .divisionByZero
  else
    match Double.nearest (decide (m < 0) != decide (n < 0)) m.natAbs n.natAbs with
    | some x => .ok (.double x)
    | none => .error .overflow

/-- A quotient of doubles, whose divisor must not be zero. -/
def quotientOfDoubles (x y : Float) : Except Fault Float :=
  if y == 0.0 then .error .divisionByZero else .ok (x / y)

/-- Division, which always yields a double. -/
def div : Number → Number → Except Fault Number
  | .int m, .int n => quotientOfInts m n
  | .int m, .double y => do return .double (← quotientOfDoubles (← doubleOfInt m) y)
  | .double x, .int n => do return .double (← quotientOfDoubles x (← doubleOfInt n))
  | .double x, .double y => do return .double (← quotientOfDoubles x y)

def remainderOfDoubles (x y : Float) : Except Fault Number :=
  if y == 0.0 then .error .divisionByZero else .ok (.double (Double.remainder x y))

def modulo : Number → Number → Except Fault Number
  | .int m, .int n => if n = 0 then .error .divisionByZero else .ok (.int (Int.fmod m n))
  | .int m, .double y => do remainderOfDoubles (← doubleOfInt m) y
  | .double x, .int n => do remainderOfDoubles x (← doubleOfInt n)
  | .double x, .double y => remainderOfDoubles x y

/-- A natural power; of a double it is a double. -/
def power (a : Number) (n : Nat) : Number :=
  match a with
  | .int m => .int (m.pow n)
  | .double x => .double (Float.pow x (Float.ofNat n))

/-- The order of two numbers, exact also between an integer and a double. -/
def order : Number → Number → Option Ordering
  | .int m, .int n => some (compare m n)
  | .int m, .double y => Double.compareInt m y
  | .double x, .int n => (Double.compareInt n x).map Ordering.swap
  | .double x, .double y =>
    if x < y then some .lt else if x == y then some .eq else if y < x then some .gt else none

def lt (a b : Number) : Bool := a.order b == some .lt

def le (a b : Number) : Bool := a.order b == some .lt || a.order b == some .eq

def equal (a b : Number) : Bool := a.order b == some .eq

/-- Numerically equal, or both no number at all. -/
def same (a b : Number) : Bool :=
  match a, b with
  | .double x, .double y => x == y || (x.isNaN && y.isNaN)
  | a, b => a.equal b

/-- The same number written the same way. -/
def identical : Number → Number → Bool
  | .int m, .int n => m == n
  | .double x, .double y => x.toBits == y.toBits
  | _, _ => false

/-- Rounds a number to an integer by a rule for finite doubles. -/
def toIntBy (rule : Bool → Nat → Int → Int) : Number → Except Fault Int
  | .int n => .ok n
  | .double x =>
    match Double.parts x with
    | .nan => .error .badValue
    | .infinite _ => .error .overflow
    | .finite negative m e => .ok (rule negative m e)

/-- The largest integer at most the number. -/
def floor (a : Number) : Except Fault Int := a.toIntBy Double.floorParts

/-- The nearest integer, a tie going to the even one. -/
def round (a : Number) : Except Fault Int := a.toIntBy Double.roundParts

end Number

end Showreel
