import Showreel.Spring.Config

/-!
# Step response of a spring

The spring is released at rest at zero and pulled to one. Its position has a closed form in time,
one for each damping regime: below a damping ratio of one it swings, from one on it creeps.
`errorBound` bounds the distance from one at every later time as well. Times and positions are
measured quantities.

`stepResponse` is `step_response`, `errorBound` is `_error_bound`, and an `Oscillator` holds
`natural_frequency` and `damping_ratio` of a `SpringConfig`.
-/

namespace Showreel.Spring

open Arith Analytic Measured

/-- The two quantities on which the motion of a spring depends. -/
structure Oscillator (μ : Type) where
  /-- The undamped angular frequency, in radians per second. -/
  frequency : μ
  /-- Below one the spring swings, at one it is critically damped, above it creeps. -/
  ratio : μ

variable {α μ : Type} [Analytic μ]

namespace Oscillator

/-- `exp (-ratio * frequency * t)`, the envelope of a swinging spring. -/
@[specialize] def decay (o : Oscillator μ) (t : μ) : Except Fault μ :=
  exp (-o.ratio * o.frequency * t)

@[specialize] def swinging (o : Oscillator μ) (t : μ) : Except Fault μ := do
  let damped := o.frequency * (← sqrt (1.0 - o.ratio * o.ratio))
  let envelope ← o.decay t
  let cosine ← cos (damped * t)
  let weight ← quotient (o.ratio * o.frequency) damped
  let sine ← sin (damped * t)
  return 1.0 - envelope * (cosine + weight * sine)

@[specialize] def critical (o : Oscillator μ) (t : μ) : Except Fault μ := do
  let envelope ← exp (-o.frequency * t)
  return 1.0 - envelope * (1.0 + o.frequency * t)

/-- The position of a creeping spring, from the two roots of its equation. -/
@[specialize] def creeping (o : Oscillator μ) (t : μ) : Except Fault μ := do
  let root ← sqrt (o.ratio * o.ratio - 1.0)
  let slow := -o.frequency * (o.ratio - root)
  let fast := -o.frequency * (o.ratio + root)
  let slowPart ← exp (slow * t)
  let fastPart ← exp (fast * t)
  let share ← quotient (fast * slowPart - slow * fastPart) (fast - slow)
  return 1.0 - share

/-- The position at a time in seconds after the release, by the damping regime. -/
@[specialize] def position (o : Oscillator μ) (t : μ) : Except Fault μ :=
  if o.ratio < 1.0 then o.swinging t
  else if o.ratio == 1.0 then o.critical t
  else o.creeping t

/-- The position at a time, at rest until the release. -/
@[specialize] def response (o : Oscillator μ) (t : μ) : Except Fault μ :=
  if t ≤ 0.0 then .ok 0.0 else o.position t

@[specialize] def error (o : Oscillator μ) (t : μ) : Except Fault μ := do
  return magnitude (1.0 - (← o.response t))

/-- An upper bound of the distance from one at a time and ever after: the envelope of a spring that
swings, the distance itself of one that creeps. -/
@[specialize] def errorBound (o : Oscillator μ) (t : μ) : Except Fault μ := do
  if o.ratio < 1.0 then
    let envelope ← o.decay t
    quotient envelope (← sqrt (1.0 - o.ratio * o.ratio))
  else o.error t

end Oscillator

variable [Measured α μ]

/-- The undamped angular frequency, in radians per second. -/
@[specialize] def Config.naturalFrequency (config : Config α) : Except Fault μ := do
  sqrt (← measure (← div config.stiffness config.mass))

@[specialize] def Config.dampingRatio (config : Config α) : Except Fault μ := do
  let product ← measure (← mul config.stiffness config.mass)
  let critical := 2.0 * (← sqrt product)
  quotient (← measure config.damping) critical

@[specialize] def Config.oscillator (config : Config α) : Except Fault (Oscillator μ) := do
  return { frequency := ← config.naturalFrequency, ratio := ← config.dampingRatio }

/-- The position of a spring at a time; until the release nothing is asked of its parameters. -/
@[specialize] def stepResponse (t : α) (config : Config α) : Except Fault α := do
  if ← le t (ofInt 0) then return 0.0
  else
    let o ← config.oscillator
    return ofMeasure (← o.position (← measure t))

end Showreel.Spring
