import Showreel.Arith

/-!
# Easings

An easing reshapes progress from zero to one. Every easing first saturates its argument, so that
outside the unit interval it holds its end values.

These are `EASINGS` of the animation helpers: `linear`, `ease_out_cubic`, `ease_in_out_cubic`,
`ease_out_quad`, `ease_out_bounce` and `smooth_step`.
-/

namespace Showreel

inductive Easing where
  | linear
  | easeOutCubic
  | easeInOutCubic
  | easeOutQuad
  | easeOutBounce
  | smoothStep
  deriving DecidableEq, Repr

namespace Easing

/-- Every easing, in the order in which they are listed. -/
def all : List Easing :=
  [linear, easeOutCubic, easeInOutCubic, easeOutQuad, easeOutBounce, smoothStep]

def name : Easing → String
  | linear => "linear"
  | easeOutCubic => "ease_out_cubic"
  | easeInOutCubic => "ease_in_out_cubic"
  | easeOutQuad => "ease_out_quad"
  | easeOutBounce => "ease_out_bounce"
  | smoothStep => "smooth_step"

/-- The names of all easings, in alphabetical order. -/
def names : List String := Text.sorted (all.map name)

def ofName? (s : String) : Option Easing := all.find? fun e => e.name == s

variable {α : Type} [Arith α]

open Arith

/-- `1 - (1 - t) ^ n`. -/
def decelerate (n : Nat) (t : α) : Except Fault α := do
  let rest ← sub 1.0 t
  sub 1.0 (← power rest n)

/-- A cubic up to one half, its point reflection from there on. -/
def accelerateDecelerate (t : α) : Except Fault α := do
  if ← lt t 0.5 then
    let scaled ← mul 4.0 t
    let squared ← mul scaled t
    mul squared t
  else
    let mirrored ← add (← mul (ofInt (-2)) t) 2.0
    let cubed ← power mirrored 3
    sub 1.0 (← div cubed 2.0)

/-- The parabola of one bounce, centred at `centre / 2.75` and lifted by `lift`. -/
def bounceArc (t centre lift : α) : Except Fault α := do
  let away ← sub t (← div centre 2.75)
  let scaled ← mul 7.5625 away
  let squared ← mul scaled away
  add squared lift

/-- Four parabolas, the last one ending at one. -/
def bounce (t : α) : Except Fault α := do
  if ← lt t (← div 1.0 2.75) then
    let scaled ← mul 7.5625 t
    mul scaled t
  else if ← lt t (← div 2.0 2.75) then bounceArc t 1.5 0.75
  else if ← lt t (← div 2.5 2.75) then bounceArc t 2.25 0.9375
  else bounceArc t 2.625 0.984375

/-- `t * t * (3 - 2 * t)`. -/
def hermite (t : α) : Except Fault α := do
  let squared ← mul t t
  let doubled ← mul 2.0 t
  mul squared (← sub 3.0 doubled)

def apply (e : Easing) (progress : α) : Except Fault α := do
  let t ← saturate progress
  match e with
  | linear => return t
  | easeOutCubic => decelerate 3 t
  | easeInOutCubic => accelerateDecelerate t
  | easeOutQuad => decelerate 2 t
  | easeOutBounce => bounce t
  | smoothStep => hermite t

end Easing

end Showreel
