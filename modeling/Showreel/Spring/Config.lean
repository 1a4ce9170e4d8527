import Showreel.Document.Operand

/-!
# Spring parameters

A spring is a damped oscillator: a mass on a spring of some stiffness, slowed by damping. Mass and
stiffness are positive and damping is not negative. A configuration may also ask that progress never
goes past one.

This is `SpringConfig`, its fields with `build` for the checks it makes and `ofSettings` for
`from_dict`, and `SPRING_PRESETS` with `load_spring_presets` (`load`).
-/

namespace Showreel.Spring

structure Config (α : Type) where
  mass : α
  damping : α
  stiffness : α
  /-- Whether progress stops at one; the setting as it was given. -/
  overshootClamping : Document := .flag false

namespace Config

variable {α : Type} [Arith α]

open Arith

/-- Makes a configuration; each number must be of its range. -/
def build (mass damping stiffness : α) (overshootClamping : Document) :
    Except Fault (Config α) := do
  if ← le mass (ofInt 0) then
    reject (.massNotPositive (← shown mass))
  if ← le stiffness (ofInt 0) then
    reject (.stiffnessNotPositive (← shown stiffness))
  if ← lt damping (ofInt 0) then
    reject (.dampingNegative (← shown damping))
  return { mass, damping, stiffness, overshootClamping }

/-- The spring of unit mass that a configuration starts from. -/
def default : Config α := { mass := 1.0, damping := 10.0, stiffness := 100.0 }

/-- Settings completed from a base configuration. -/
def ofSettings (settings : Document) (base : Config Document) :
    Except Fault (Config Document) := do
  build (← settings.setting "mass" base.mass) (← settings.setting "damping" base.damping)
    (← settings.setting "stiffness" base.stiffness)
    (← settings.setting "overshoot_clamping" base.overshootClamping)

end Config

/-- No overshoot, a slow approach. -/
def smooth {α : Type} [Arith α] : Config α :=
  { mass := Arith.ofInt 1, damping := Arith.ofInt 200, stiffness := Arith.ofInt 100 }

/-- Quick, with little overshoot. -/
def snappy {α : Type} [Arith α] : Config α :=
  { mass := Arith.ofInt 1, damping := Arith.ofInt 20, stiffness := Arith.ofInt 200 }

/-- Swings around its goal. -/
def bouncy {α : Type} [Arith α] : Config α :=
  { mass := Arith.ofInt 1, damping := Arith.ofInt 8, stiffness := Arith.ofInt 100 }

/-- A large mass that swings slowly. -/
def heavy {α : Type} [Arith α] : Config α :=
  { mass := Arith.ofInt 2, damping := Arith.ofInt 15, stiffness := Arith.ofInt 80 }

/-- Named springs, in the order in which they were first named. -/
abbrev Presets := List (String × Config Document)

namespace Presets

def find? (presets : Presets) (name : String) : Option (Config Document) :=
  Document.lookup name presets

/-- The names in alphabetical order. -/
def names (presets : Presets) : List String := Text.sorted (presets.map Prod.fst)

/-- The springs that are always there. -/
def builtin : Presets :=
  [("smooth", smooth), ("snappy", snappy), ("bouncy", bouncy), ("heavy", heavy)]

/-- Adds one entry of settings, completed from the spring that has the name so far. -/
def override (presets : Presets) (entry : String × Document) : Except Fault Presets := do
  let base := (presets.find? entry.1).getD Config.default
  return Document.put entry.1 (← Config.ofSettings entry.2 base) presets

/-- The built-in springs with the overrides of a configuration. -/
def load (configuration : Document) : Except Fault Presets := do
  let springs ← configuration.setting "springs" .null
  if springs.isTrue then
    (← springs.entries).foldlM override builtin
  else return builtin

end Presets

end Showreel.Spring
