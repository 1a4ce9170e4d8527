import Showreel.Text.Printable

/-!
# Quoted text

Text inside a message is written between quotes: single ones, unless it holds a single quote and no
double one. The quote in use and the backslash are escaped, and so is every character that is not
printable.

`quote` is `repr` of text, `quoteAll` that of a list of names, and `sorted` the order of `sorted`,
as messages list what is known.
-/

namespace Showreel.Text

def hexDigit (n : Nat) : Char :=
  if n < 10 then Char.ofNat (48 + n) else Char.ofNat (87 + n)

/-- The last `width` hexadecimal digits of `n`. -/
def hexDigits : Nat → Nat → List Char
  | 0, _ => []
  | width + 1, n => hexDigits width (n / 16) ++ [hexDigit (n % 16)]

/-- A character between quotes `q`; an unprintable one becomes the shortest escape of its code
point. -/
def escape (q : Char) (c : Char) : List Char :=
  if c = q ∨ c = '\\' then ['\\', c]
  else if c = '\n' then ['\\', 'n']
  else if c = '\r' then ['\\', 'r']
  else if c = '\t' then ['\\', 't']
  else if isPrintable c then [c]
  else if c.toNat < 256 then '\\' :: 'x' :: hexDigits 2 c.toNat
  else if c.toNat < 65536 then '\\' :: 'u' :: hexDigits 4 c.toNat
  else '\\' :: 'U' :: hexDigits 8 c.toNat

def quote (s : String) : String :=
  let q := if s.toList.contains '\'' && !s.toList.contains '"' then '"' else '\''
  String.ofList (q :: (s.toList.flatMap (escape q)) ++ [q])

def bracketed (items : List String) : String :=
  "[" ++ ", ".intercalate items ++ "]"

/-- A list of names, each quoted. -/
def quoteAll (names : List String) : String :=
  bracketed (names.map quote)

/-- Names in ascending order of their code points. -/
def sorted (names : List String) : List String :=
  names.mergeSort fun a b => decide (a ≤ b)

/-- Text filled up with blanks on the right. -/
def padRight (width : Nat) (s : String) : String :=
  s ++ String.ofList (List.replicate (width - s.length) ' ')

/-- Text filled up with blanks on the left. -/
def padLeft (width : Nat) (s : String) : String :=
  String.ofList (List.replicate (width - s.length) ' ') ++ s

end Showreel.Text
