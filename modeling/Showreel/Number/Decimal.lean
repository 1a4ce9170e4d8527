import Showreel.Number.Double

/-!
# Decimal text of doubles

Two ways to write a double: `shortest`, the fewest digits that read back as the same double (of
those, the nearest), and `fixed`, a given number of places with ties to the even digit. Both work on
the exact value of the double. `read` goes the other way and finds the double nearest to a decimal.

`shortest` is `repr` of a `float`, `fixed` its format with a fixed number of places, and `read` what
`float` makes of digits.
-/

namespace Showreel.Decimal

open Showreel.Double

/-- Digits and a power of ten: the decimal `digits · 10 ^ exponent`. -/
structure Scientific where
  digits : Nat
  exponent : Int
  deriving DecidableEq, Repr

/-- Positional notation begins at this power of ten, the first digit's. -/
def leastPositional : Int := -4

/-- From this power of ten of the first digit on, notation is scientific. -/
def leastScientific : Int := 16

/-- Whether `10 ^ k ≤ m · 2 ^ e`. -/
def reaches (m : Nat) (e k : Int) : Bool :=
  decide (Nat.pow 10 k.toNat * Nat.pow 2 (-e).toNat ≤ m * Nat.pow 2 e.toNat * Nat.pow 10 (-k).toNat)

/-- The least power of ten above `m · 2 ^ e`, for a positive `m`. -/
def magnitudeOf (m : Nat) (e : Int) : Int :=
  let guess := Int.fdiv ((m.log2 + e) * 30103) 100000
  if reaches m e guess then
    if reaches m e (guess + 1) then guess + 2 else guess + 1
  else guess

/-- A decimal with at most `n` digits that reads back as `m · 2 ^ e`: one of the two neighbours of
the value on the grid of `n` digits, the nearer one if both do. The doubles nearest to the value are
a gap apart, and half a gap below a power of two. -/
def withDigits? (m : Nat) (e : Int) (n : Nat) : Option Scientific :=
  let p := magnitudeOf m e - n
  let twos := Nat.pow 2 (e - 2).toNat
  let tens := Nat.pow 10 (-p).toNat
  let unit := Nat.pow 10 p.toNat * Nat.pow 2 (2 - e).toNat
  let value := 4 * m * twos * tens
  let above := value + 2 * twos * tens
  let below := value - (if m = Nat.pow 2 52 ∧ leastExponent < e then 1 else 2) * twos * tens
  let readsBack (c : Nat) : Bool :=
    if m % 2 = 0 then decide (below ≤ c * unit ∧ c * unit ≤ above)
    else decide (below < c * unit ∧ c * unit < above)
  let c := value / unit
  let rest := 2 * (value % unit)
  let nearer := if rest < unit ∨ (rest = unit ∧ c % 2 = 0) then c else c + 1
  let other := if nearer = c then c + 1 else c
  if 0 < nearer && readsBack nearer then some ⟨nearer, p⟩
  else if 0 < other && readsBack other then some ⟨other, p⟩
  else none

/-- The first of the counts `n, n + 1, …` of digits that suffice. -/
def firstDigits (m : Nat) (e : Int) : Nat → Nat → Scientific
  | 0, _ => ⟨m * Nat.pow 2 e.toNat, 0⟩
  | fuel + 1, n => (withDigits? m e n).getD (firstDigits m e fuel (n + 1))

/-- The shortest decimal that reads back as `m · 2 ^ e`; seventeen digits always do. -/
def shortestOf (m : Nat) (e : Int) : Scientific := firstDigits m e 17 1

/-- Removes zeros at the end, each of which raises the exponent. -/
def dropZeros : Nat → Scientific → Scientific
  | 0, s => s
  | fuel + 1, s =>
    if s.digits % 10 = 0 then dropZeros fuel ⟨s.digits / 10, s.exponent + 1⟩ else s

def zeros (n : Nat) : String := String.ofList (List.replicate n '0')

/-- An exponent with its sign and at least two digits. -/
def exponentText (k : Int) : String :=
  let digits := toString k.natAbs
  (if k < 0 then "-" else "+") ++ (if digits.length < 2 then "0" ++ digits else digits)

/-- Writes a positive decimal, positional when its first digit stands near enough to the point. -/
def Scientific.text (s : Scientific) : String :=
  let ds := toString s.digits
  let point := ds.length + s.exponent
  if leastPositional < point ∧ point ≤ leastScientific then
    if point ≤ 0 then "0." ++ zeros (-point).toNat ++ ds
    else if 0 ≤ s.exponent then ds ++ zeros s.exponent.toNat ++ ".0"
    else (ds.take point.toNat).toString ++ "." ++ (ds.drop point.toNat).toString
  else
    let fraction := (ds.drop 1).toString
    (ds.take 1).toString ++ (if fraction.isEmpty then "" else "." ++ fraction)
      ++ "e" ++ exponentText (point - 1)

def signText (negative : Bool) : String := if negative then "-" else ""

/-- A double in the fewest digits that read back. -/
def shortest (x : Float) : String :=
  match parts x with
  | .nan => "nan"
  | .infinite negative => signText negative ++ "inf"
  | .finite negative 0 _ => signText negative ++ "0.0"
  | .finite negative m e => signText negative ++ (dropZeros 17 (shortestOf m e)).text

/-- `m · 2 ^ e` in units of `10 ^ -places`, a tie to the even unit. -/
def unitsOf (places m : Nat) (e : Int) : Nat :=
  roundQuotient (m * Nat.pow 2 e.toNat * Nat.pow 10 places) (Nat.pow 2 (-e).toNat)

/-- A natural number of units of `10 ^ -places` with its point. -/
def pointText (places units : Nat) : String :=
  let ds := toString units
  let ds := zeros (places + 1 - ds.length) ++ ds
  (ds.take (ds.length - places)).toString ++ "." ++ (ds.drop (ds.length - places)).toString

/-- A double with a fixed number of places, a sign standing before whatever is negative. -/
def fixed (places : Nat) (x : Float) : String :=
  match parts x with
  | .nan => "nan"
  | .infinite negative => signText negative ++ "inf"
  | .finite negative m e => signText negative ++ pointText places (unitsOf places m e)

/-- A double with a fixed number of places; what rounds to zero has no sign. -/
def fixedUnsignedZero (places : Nat) (x : Float) : String :=
  match parts x with
  | .finite negative m e =>
    let units := unitsOf places m e
    signText (negative && units != 0) ++ pointText places units
  | _ => fixed places x

/-- The double nearest to `± digits · 10 ^ exponent`, an infinity past the largest one. Exponents
that decide the result alone are settled without forming the power. -/
def read (negative : Bool) (digits : Nat) (exponent : Int) : Float :=
  let size : Int := (toString digits).length + exponent
  if digits = 0 ∨ size < -400 then if negative then -0.0 else 0.0
  else if 400 < size then infinity negative
  else
    (nearest negative (digits * Nat.pow 10 exponent.toNat) (Nat.pow 10 (-exponent).toNat)).getD
      (infinity negative)

end Showreel.Decimal
