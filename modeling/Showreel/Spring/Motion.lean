import Showreel.Spring.Response

/-!
# Spring motion

The progress of a spring at a frame: nothing before its delay, then its step response at the time
the frame stands for. The progress may be stretched to a given number of frames, by the ratio of
that number to the frames which the spring needs to settle. Settling is measured by walking over the
frames and remembering the last one outside the band around one; the error bound says when no later
frame can leave it. It is measured at most once for all delays, lengths and frames of a motion.

`settleFrames` is `measure_spring`, with its `_MAX_SETTLE_FRAMES` and `DEFAULT_SETTLE_THRESHOLD`;
`progressAt` and `clampedResponse` together are `spring`.
-/

namespace Showreel.Spring

variable {α μ : Type}

structure Motion (α : Type) where
  /-- The frames that it takes by itself, found when they are first asked for. -/
  natural : Thunk (Except Fault Nat)
  /-- The progress at a frame after a delay, stretched to a length if one is given. -/
  progress : (delay : α) → (length : Option α) → (frame : α) → Except Fault α

/-- The distance from one that counts as settled. -/
def defaultSettleThreshold [Arith α] : α := 0.005

/-- Settling is not followed further than this, ten minutes at thirty frames per second. -/
def settleLimit : Nat := 18000

open Arith Measured

section Release

variable [Arith α]

/-- The frames since the release that the motion stands for, `natural` frames being stretched to a
length if one is given. -/
@[specialize] def stretched (elapsed : α) (natural : Thunk (Except Fault Nat)) (length : Option α) :
    Except Fault α :=
  match length with
  | none => .ok elapsed
  | some length => do
    if ← le length (ofInt 0) then
      reject (.springLengthNotPositive (← shown length))
    mul elapsed (← div (ofInt (← natural.get)) length)

/-- The progress at a frame of what is released after a delay and has a position at every time since
then. -/
@[specialize] def progressAt (fps : α) (natural : Thunk (Except Fault Nat))
    (position : α → Except Fault α) (delay : α) (length : Option α) (frame : α) :
    Except Fault α := do
  if ← le fps (ofInt 0) then
    reject (.fpsNotPositive (← shown fps))
  else if ← lt frame delay then return 0.0
  else
    let elapsed ← stretched (← sub frame delay) natural length
    position (← div elapsed fps)

end Release

section Settling

variable [Analytic μ] [Measured α μ]

/-- Walks over the frames from `frame` on, at most `fuel` of them; returns the last one seen
outside. A spring whose oscillation cannot be computed is no fault before there is a time to ask it
for. -/
@[specialize] def lastOutside (fps threshold : α) (spring : Except Fault (Oscillator μ)) :
    Nat → Nat → Nat → Except Fault Nat
  | 0, _, last => .ok last
  | fuel + 1, frame, last => do
    let t ← measure (← div (ofInt frame) fps)
    let o ← spring
    let outside ← le threshold (ofMeasure (← o.error t))
    let last := if outside then frame else last
    if ← lt (ofMeasure (← o.errorBound t)) threshold then return last
    else lastOutside fps threshold spring fuel (frame + 1) last

/-- The number of frames after which a spring stays within a threshold of one. Measurements are kept
under their parameters, so what cannot be a key has none. -/
@[specialize] def settleFrames (fps : α) (config : Config α) (threshold : α) :
    Except Fault Nat := do
  if !(isKey fps && config.overshootClamping.isKey && isKey threshold) then .error .wrongType
  else if ← le threshold (ofInt 0) then reject (.thresholdNotPositive (← shown threshold))
  else return (← lastOutside fps threshold config.oscillator settleLimit 0 0) + 1

/-- The position of a spring at a time, not past one if it is clamped. -/
@[specialize] def clampedResponse (config : Config α) (t : α) : Except Fault α := do
  let value ← stepResponse t config
  if config.overshootClamping.isTrue then least value 1.0 else return value

/-- The motion of a spring at a rate of frames, by itself settling in a given number of them. -/
@[specialize] def settlingMotion (natural : Thunk (Except Fault Nat)) (fps : α)
    (config : Config α) : Motion α :=
  { natural, progress := progressAt fps natural (clampedResponse config) }

/-- The motion of a spring at a rate of frames. -/
@[specialize] def motion (fps : α) (config : Config α) : Motion α :=
  settlingMotion (Thunk.mk fun _ => settleFrames fps config defaultSettleThreshold) fps config

end Settling

/-- A number system with spring-driven motion. Scenes and timelines ask for no more of a spring than
its progress. -/
class Animated (α : Type) where
  /-- The motion of a spring at a rate of frames. -/
  motion : (fps : α) → Config α → Motion α

/-- The progress of a spring at a single frame, not stretched. -/
def Animated.progress [Animated α] (fps : α) (config : Config α) (delay frame : α) :
    Except Fault α :=
  (Animated.motion fps config).progress delay none frame

instance : Animated Document where
  motion := motion

end Showreel.Spring
