import Showreel.Fault

/-!
# Number systems

Motion is arithmetic on frame numbers, lengths and positions. `Arith` lists what that arithmetic
needs, so that one set of definitions serves the values that documents hold, where any operation and
any comparison may fail, and the exact numbers in which laws about motion are stated. Only equality
never fails. Decimal literals denote measured quantities (`0.5`), `ofInt` counted ones.

Oscillations are computed in measured quantities alone. `Analytic` lists what they need, and
`Measured` says how a number system is measured.

`least`, `greatest`, `total` and `countUpTo` stand for the built-in `min`, `max` and `sum` and for
`bisect_right`, comparison by comparison; `saturate` is `max(0.0, min(1.0, t))`, with which the
program bounds progress and opacity.
-/

namespace Showreel

/-- A number system in which curves, timelines and scenes can be evaluated. -/
class Arith (α : Type) extends OfScientific α, BEq α where
  ofInt : Int → α
  lt : α → α → Except Fault Bool
  le : α → α → Except Fault Bool
  /-- The same quantity as a measured one. -/
  widen : α → Except Fault α
  add : α → α → Except Fault α
  sub : α → α → Except Fault α
  mul : α → α → Except Fault α
  div : α → α → Except Fault α
  /-- The remainder that has the divisor's sign. -/
  modulo : α → α → Except Fault α
  power : α → Nat → Except Fault α
  floor : α → Except Fault Int
  /-- Whether a result may be kept under the number. -/
  isKey : α → Bool
  shown : α → Except Fault String
  /-- How messages show the number inside a list. -/
  quoted : α → Except Fault String

/-- Measured quantities, with the functions that a damped oscillation needs. -/
class Analytic (μ : Type) extends
    OfScientific μ, Add μ, Sub μ, Mul μ, Neg μ, LT μ, LE μ, BEq μ where
  decidableLT : DecidableLT μ
  decidableLE : DecidableLE μ
  quotient : μ → μ → Except Fault μ
  sqrt : μ → Except Fault μ
  exp : μ → Except Fault μ
  sin : μ → Except Fault μ
  cos : μ → Except Fault μ
  magnitude : μ → μ

attribute [reducible, instance] Analytic.decidableLT Analytic.decidableLE

/-- A number system whose numbers can be measured. -/
class Measured (α : Type) (μ : outParam Type) extends Arith α where
  measure : α → Except Fault μ
  ofMeasure : μ → α

namespace Arith

variable {α : Type} [Arith α]

/-- The smaller of two numbers, the first unless the second is strictly smaller. -/
def least (a b : α) : Except Fault α := do
  if ← lt b a then return b else return a

/-- The larger of two numbers, the first unless the second is strictly larger. -/
def greatest (a b : α) : Except Fault α := do
  if ← lt a b then return b else return a

/-- The part of a number between zero and one. -/
def saturate (x : α) : Except Fault α := do
  greatest 0.0 (← least 1.0 x)

/-- Whether a number lies between two others, the upper one excluded. -/
def between (x low high : α) : Except Fault Bool := do
  if ← le low x then lt x high else return false

/-- The sum of a list, from zero on, left to right. -/
def total (xs : List α) : Except Fault α := xs.foldlM add (ofInt 0)

/-- The number of entries at most `x` in a non-decreasing list, by halving the stretch `[lo,
hi)`. -/
def upperBound (xs : List α) (x : α) : Nat → Nat → Nat → Except Fault Nat
  | 0, lo, _ => .ok lo
  | fuel + 1, lo, hi =>
    if lo < hi then
      let mid := (lo + hi) / 2
      match xs[mid]? with
      | some b => do
        if ← lt x b then upperBound xs x fuel lo mid else upperBound xs x fuel (mid + 1) hi
      | none => .ok lo
    else .ok lo

def countUpTo (xs : List α) (x : α) : Except Fault Nat := upperBound xs x xs.length 0 xs.length

end Arith

end Showreel
