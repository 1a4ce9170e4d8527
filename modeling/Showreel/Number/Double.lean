/-!
# Doubles as exact numbers

A finite double is a signed mantissa times a power of two. `parts` takes one apart, and `nearest`
finds the double closest to a quotient of naturals, a tie going to the even mantissa; every
conversion and quotient of counted numbers goes through it. Nothing here is approximate: the
rounding is done on naturals and the result is written as the bits of a double.

These are the conversions behind the built-in `float`: from an `int`, as a true quotient, to an
`int`, and `%`.
-/

namespace Showreel.Double

/-- What the bits of a double say. A finite one is `± mantissa · 2 ^ exponent`. -/
inductive Parts where
  | nan
  | infinite (negative : Bool)
  | finite (negative : Bool) (mantissa : Nat) (exponent : Int)
  deriving DecidableEq, Repr

/-- The exponent of the smallest positive double. -/
def leastExponent : Int := -1074

/-- Takes a double apart. -/
def parts (x : Float) : Parts :=
  let bits := x.toBits.toNat
  let negative := decide (Nat.pow 2 63 ≤ bits)
  let field : Nat := bits / Nat.pow 2 52 % Nat.pow 2 11
  let low : Nat := bits % Nat.pow 2 52
  if field = 2047 then
    if low = 0 then .infinite negative else .nan
  else if field = 0 then .finite negative low leastExponent
  else .finite negative (low + Nat.pow 2 52) ((field : Int) - 1 + leastExponent)

/-- The quotient rounded to the nearest natural, a tie to the even one. -/
def roundQuotient (num den : Nat) : Nat :=
  let q := num / den
  let r := num % den
  if den < 2 * r ∨ (2 * r = den ∧ q % 2 = 1) then q + 1 else q

/-- Numerator and denominator of `num / den / 2 ^ e`. -/
def scale (num den : Nat) (e : Int) : Nat × Nat :=
  (num <<< (-e).toNat, den <<< e.toNat)

/-- The exponent at which `num / den` has a mantissa of 53 bits, or the least exponent if that is
larger. -/
def exponentOf (num den : Nat) : Int :=
  let guess : Int := (num.log2 : Int) - den.log2 - 52
  let (n, d) := scale num den guess
  max leastExponent (if n < d <<< 52 then guess - 1 else guess)

/-- The bits of the double of sign `negative` nearest to `num / den`. A mantissa that rounds up to
`2 ^ 53` carries into the exponent by itself. -/
def nearestBits (negative : Bool) (num den : Nat) : Nat :=
  let sign := if negative then Nat.pow 2 63 else 0
  if num = 0 then sign
  else
    let e := exponentOf num den
    let (n, d) := scale num den e
    sign + (e - leastExponent).toNat * Nat.pow 2 52 + roundQuotient n d

def infinityBits (negative : Bool) : Nat :=
  (if negative then Nat.pow 2 63 else 0) + 2047 * Nat.pow 2 52

/-- The double nearest to `± num / den`, unless that is past the largest one. -/
def nearest (negative : Bool) (num den : Nat) : Option Float :=
  let bits := nearestBits negative num den
  if bits < infinityBits negative then some (Float.ofBits (UInt64.ofNat bits)) else none

/-- The double nearest to an integer, unless that is past the largest one. -/
def ofInt (n : Int) : Option Float :=
  nearest (decide (n < 0)) n.natAbs 1

def infinity (negative : Bool) : Float := Float.ofBits (UInt64.ofNat (infinityBits negative))

def nan : Float := Float.ofBits 0x7ff8000000000000

def signed (negative : Bool) (m : Nat) : Int := if negative then -(m : Int) else m

/-- The largest integer at most `± m · 2 ^ e`. -/
def floorParts (negative : Bool) (m : Nat) (e : Int) : Int :=
  Int.fdiv (signed negative m * Int.pow 2 e.toNat) (Int.pow 2 (-e).toNat)

/-- The integer nearest to `± m · 2 ^ e`, a tie to the even one. -/
def roundParts (negative : Bool) (m : Nat) (e : Int) : Int :=
  signed negative (roundQuotient (m * Nat.pow 2 e.toNat) (Nat.pow 2 (-e).toNat))

/-- The order of an integer and a double, `none` if the double is no number. -/
def compareInt (n : Int) (x : Float) : Option Ordering :=
  match parts x with
  | .nan => none
  | .infinite negative => some (if negative then .gt else .lt)
  | .finite negative m e =>
    some (compare (n * Int.pow 2 (-e).toNat) (signed negative m * Int.pow 2 e.toNat))

/-- The remainder of two finite magnitudes, scaled to the smaller exponent, which it is returned
with. -/
def remainderParts (m : Nat) (e : Int) (m' : Nat) (e' : Int) : Nat × Int :=
  let low := min e e'
  ((m * Nat.pow 2 (e - low).toNat) % (m' * Nat.pow 2 (e' - low).toNat), low)

/-- The remainder of a division that truncates; it has the sign of the first operand and is exact.
The second operand is not zero. -/
def truncatedRemainder (x y : Float) : Float :=
  match parts x, parts y with
  | .nan, _ | _, .nan | .infinite _, _ => nan
  | _, .infinite _ => x
  | .finite negative m e, .finite _ m' e' =>
    let (r, low) := remainderParts m e m' e'
    (nearest negative (r * Nat.pow 2 low.toNat) (Nat.pow 2 (-low).toNat)).getD nan

/-- The remainder that has the sign of the second operand, which is not zero. -/
def remainder (x y : Float) : Float :=
  let r := truncatedRemainder x y
  if r == 0.0 then (if y < 0.0 then -0.0 else 0.0)
  else if decide (y < 0.0) != decide (r < 0.0) then r + y else r

end Showreel.Double
