/-!
# Integers in text

An integer may be written with blanks around it, a sign, and single underscores between its digits;
base sixteen allows a leading `0x`. Blanks and digits are those of all scripts: the tables hold
Unicode 14's white space beyond the ASCII blanks and the zeros of its decimal digit runs.

`integer?` is `int` of a text with a base, as `hex_to_rgb` uses it, and `decimal?` and `ofInteger?`
turn text into an `int` and back, within the limit of 4300 digits.
-/

namespace Showreel.Text

/-- Blanks: the ASCII ones from tab to carriage return and the space, and white space of other
scripts. -/
def isBlank (c : Char) : Bool :=
  let n := c.toNat
  (9 ≤ n && n ≤ 13) || n == 32 || n == 133 || n == 160 || n == 5760
    || (8192 ≤ n && n ≤ 8202) || n == 8232 || n == 8233 || n == 8239 || n == 8287 || n == 12288

/-- The code points of the digit zero in every script with decimal digits; nine digits follow
each. -/
def decimalZeros : List Nat := [
  48, 1632, 1776, 1984, 2406, 2534, 2662, 2790, 2918, 3046, 3174, 3302, 3430, 3558, 3664, 3792,
  3872, 4160, 4240, 6112, 6160, 6470, 6608, 6784, 6800, 6992, 7088, 7232, 7248, 42528, 43216,
  43264, 43472, 43504, 43600, 44016, 65296, 66720, 68912, 69734, 69872, 69942, 70096, 70384,
  70736, 70864, 71248, 71360, 71472, 71904, 72016, 72784, 73040, 73120, 92768, 92864, 93008,
  120782, 120792, 120802, 120812, 120822, 123200, 123632, 125264, 130032]

/-- The value of a decimal digit of any script. -/
def decimalValue? (c : Char) : Option Nat :=
  (decimalZeros.find? fun z => z ≤ c.toNat && c.toNat < z + 10).map fun z => c.toNat - z

/-- The value of a character as a digit: a decimal digit, or a Latin letter from ten on. -/
def digitValue? (c : Char) : Option Nat :=
  if 'a' ≤ c ∧ c ≤ 'z' then some (c.toNat - 87)
  else if 'A' ≤ c ∧ c ≤ 'Z' then some (c.toNat - 55)
  else decimalValue? c

/-- The value of a character as a digit of a base. -/
def digitOf? (base : Nat) (c : Char) : Option Nat :=
  (digitValue? c).filter fun d => d < base

/-- Digits with single underscores between them, after a digit; `value` is that of the digits read
so far. -/
def digitsFrom? (base : Nat) (value : Nat) : List Char → Option Nat
  | [] => some value
  | '_' :: c :: rest => do digitsFrom? base (value * base + (← digitOf? base c)) rest
  | c :: rest => do digitsFrom? base (value * base + (← digitOf? base c)) rest

def digits? (base : Nat) : List Char → Option Nat
  | [] => none
  | c :: rest => do digitsFrom? base (← digitOf? base c) rest

/-- An unsigned integer, in base sixteen perhaps after `0x` and one underscore. -/
def natural? (base : Nat) (cs : List Char) : Option Nat :=
  match cs with
  | zero :: x :: rest =>
    if base = 16 ∧ decimalValue? zero = some 0 ∧ (x = 'x' ∨ x = 'X') then
      match rest with
      | '_' :: rest => digits? base rest
      | rest => digits? base rest
    else digits? base cs
  | cs => digits? base cs

def trimBlanks (cs : List Char) : List Char :=
  ((cs.dropWhile isBlank).reverse.dropWhile isBlank).reverse

/-- The integer that a text writes in a base. -/
def integer? (base : Nat) (cs : List Char) : Option Int :=
  match trimBlanks cs with
  | '-' :: rest => (natural? base rest).map fun n => -(n : Int)
  | '+' :: rest => (natural? base rest).map Int.ofNat
  | cs => (natural? base cs).map Int.ofNat

/-- Integers are read and written with at most so many decimal digits. -/
def digitLimit : Nat := 4300

/-- The integer that a text writes in decimal digits. -/
def decimal? (cs : List Char) : Option Int :=
  if digitLimit < cs.countP (fun c => (decimalValue? c).isSome) then none else integer? 10 cs

/-- The smallest magnitude with too many digits to be written. -/
def unwritable : Nat := Nat.pow 10 digitLimit

def ofInteger? (n : Int) : Option String :=
  if n.natAbs < unwritable then some (toString n) else none

end Showreel.Text
