import Showreel.Curve
import Showreel.Scene.Entrance

/-!
# Phases of a scene

Scenes are divided into phases at whole frames. These are the tests and ramps between such frames.

`during` is `in_range` of the timing helpers; the others are the comparisons, calls of `interpolate`
and calls of `fade_in` that every `scene_state` is written with.
-/

namespace Showreel.Phase

variable {α : Type} [Arith α]

open Arith

/-- From a frame on. -/
def since (frame : α) (start : Int) : Except Fault Bool := le (ofInt start) frame

/-- In front of a frame. -/
def before (frame : α) (stop : Int) : Except Fault Bool := lt frame (ofInt stop)

/-- From one frame on and in front of another. -/
def during (frame : α) (start stop : Int) : Except Fault Bool :=
  between frame (ofInt start) (ofInt stop)

/-- From one frame to another, both included. -/
def through (frame : α) (first last : Int) : Except Fault Bool := do
  if ← since frame first then le frame (ofInt last) else return false

/-- A ramp through whole values at whole frames, held beyond both ends. -/
def rampAt (frame : α) (frames values : List Int) : Except Fault α :=
  ramp frame (frames.map ofInt) (values.map ofInt)

/-- A fade that starts at a frame and lasts some frames. -/
def fadeAt (frame : α) (start length : Int) (direction : FadeDirection) :
    Except Fault (Entrance α) :=
  Entrance.fadeIn frame (ofInt start) (ofInt length) (.known direction)

end Showreel.Phase
