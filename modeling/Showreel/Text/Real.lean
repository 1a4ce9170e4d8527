import Showreel.Number.Decimal
import Showreel.Text.Integer

/-!
# Reals in text

A real may be written with blanks around it, a sign, a point, an exponent, and single underscores
between its digits, which may be those of any script; infinity and what is no number have names. It
is read as the double nearest to it.

`real?` is `float` of a text.
-/

namespace Showreel.Text

/-- A character with its digit, if it is one, as the digit from zero to nine. -/
def plainDigit (c : Char) : Char :=
  match decimalValue? c with
  | some d => Char.ofNat (48 + d)
  | none => c

/-- Text without its underscores, each of which must stand between two digits; `afterDigit` tells
whether a digit stands in front. -/
def dropUnderscores? (afterDigit : Bool) : List Char → Option (List Char)
  | [] => some []
  | '_' :: c :: rest =>
    if afterDigit && c.isDigit then (dropUnderscores? true rest).map (c :: ·) else none
  | c :: rest => if c = '_' then none else (dropUnderscores? c.isDigit rest).map (c :: ·)

/-- The sign in front, if there is one, and the rest. -/
def splitSign : List Char → Bool × List Char
  | '-' :: rest => (true, rest)
  | '+' :: rest => (false, rest)
  | rest => (false, rest)

def digitsValue (ds : List Char) : Nat := ds.foldl (fun n d => n * 10 + (d.toNat - 48)) 0

/-- The exponent that a whole text writes; no text is the exponent zero. -/
def exponent? : List Char → Option Int
  | [] => some 0
  | e :: rest =>
    let (negative, ds) := splitSign rest
    if (e = 'e' ∨ e = 'E') ∧ ds.all Char.isDigit ∧ ¬ ds.isEmpty then
      some (Double.signed negative (digitsValue ds))
    else none

/-- An unsigned real in digits. -/
def digitsReal? (negative : Bool) (cs : List Char) : Option Float :=
  let whole := cs.takeWhile Char.isDigit
  let rest := cs.dropWhile Char.isDigit
  let (fraction, rest) := match rest with
    | '.' :: more => (more.takeWhile Char.isDigit, more.dropWhile Char.isDigit)
    | rest => ([], rest)
  let digits := whole ++ fraction
  if digits.isEmpty then none
  else (exponent? rest).map fun e =>
    Decimal.read negative (digitsValue digits) (e - fraction.length)

def namedReal? (negative : Bool) (name : String) : Option Float :=
  if name = "inf" ∨ name = "infinity" then some (Double.infinity negative)
  else if name = "nan" then some Double.nan
  else none

/-- The double nearest to the real that a text writes. -/
def real? (s : String) : Option Float := do
  let cs ← dropUnderscores? false ((trimBlanks s.toList).map plainDigit)
  let (negative, cs) := splitSign cs
  match namedReal? negative (String.ofList (cs.map Char.toLower)) with
  | some x => some x
  | none => digitsReal? negative cs

end Showreel.Text
