import Showreel.Fault
import Showreel.Text.Real

/-!
# Templates

Text may be a template for a value. A percent sign opens a place for it; behind the sign may stand
flags, a width, a precision and a size letter, and the letter of a conversion closes the place. A
star for a width or a precision takes the value for it. Two percent signs are one that is meant.

`check` tells whether a template can be filled with one small integer, which has to be used exactly
once. A place that is malformed is found before one that lacks a value, unless the value is asked
for first.

This is `%` of a text and a number, as arithmetic on a setting that holds text comes to it.
-/

namespace Showreel.Text.Template

def widthLimit : Nat := Nat.pow 2 63 - 1

def precisionLimit : Nat := Nat.pow 2 31 - 1

/-- Signs in front of a width. -/
def isFlag (c : Char) : Bool := "-+ #0".toList.contains c

/-- Letters between a precision and a conversion, which say nothing. -/
def isSizeLetter (c : Char) : Bool := "hlL".toList.contains c

def isConversion (c : Char) : Bool := "sradiuoxXeEfFgGc".toList.contains c

/-- Letters of conversions that write digits of an integer. -/
def writesDigits (c : Char) : Bool := "diuoxX".toList.contains c

/-- Uses the value, which must be unused. -/
def use (unused : Bool) : Except Fault Unit :=
  if unused then .ok () else .error .wrongType

/-- A width or a precision in digits or for the value, with what follows it. -/
def extent (limit : Nat) (unused : Bool) : List Char → Except Fault (Nat × Bool × List Char)
  | '*' :: rest => do
    use unused
    return (0, false, rest)
  | cs =>
    let n := digitsValue (cs.takeWhile Char.isDigit)
    if limit < n then .error .badValue else .ok (n, unused, cs.dropWhile Char.isDigit)

/-- A precision behind a point, with what follows it. -/
def precision (unused : Bool) : List Char → Except Fault (Nat × Bool × List Char)
  | '.' :: rest => extent precisionLimit unused rest
  | cs => .ok (0, unused, cs)

/-- What follows a size letter. -/
def skipSizeLetter : List Char → List Char
  | [] => []
  | c :: rest => if isSizeLetter c then rest else c :: rest

/-- Writes a small integer by a conversion. -/
def convert (letter : Char) (width precision : Nat) : Except Fault Unit :=
  if !isConversion letter then .error .badValue
  else if writesDigits letter && precisionLimit - 3 < precision then .error .overflow
  else if roomFor ≤ width then .error .outOfMemory
  else .ok ()

/-- A place behind its percent sign: whether the value is still unused, and what follows. -/
def place (unused : Bool) : List Char → Except Fault (Bool × List Char)
  | '%' :: rest => .ok (unused, rest)
  | '(' :: _ => .error .wrongType
  | cs => do
    let (width, unused, cs) ← extent widthLimit unused (cs.dropWhile isFlag)
    let (precision, unused, cs) ← precision unused cs
    match skipSizeLetter cs with
    | [] => .error .badValue
    | letter :: rest =>
      use unused
      convert letter width precision
      return (false, rest)

/-- Fills the places of a text of at most `fuel` characters. -/
def fill : Nat → Bool → List Char → Except Fault Unit
  | _, unused, [] => if unused then .error .wrongType else .ok ()
  | 0, _, _ => .ok ()
  | fuel + 1, unused, '%' :: rest => do
    let (unused, rest) ← place unused rest
    fill fuel unused rest
  | fuel + 1, unused, _ :: rest => fill fuel unused rest

/-- Whether a template can be filled with one small integer. -/
def check (template : String) : Except Fault Unit :=
  fill template.length true template.toList

end Showreel.Text.Template
