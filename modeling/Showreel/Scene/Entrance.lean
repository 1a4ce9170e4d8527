import Showreel.Curve
import Showreel.Snapshot
import Showreel.Spring.Motion

/-!
# Entrances

How an element comes into view: by fading, by popping up to its size, or by sliding in from the
side. Fades follow the clock and end where they are told to; pops and slides follow a spring, whose
overshoot shows in size and place but never in opacity.

This is `Entrance` of the scene state; `fadeIn`, `scaleIn` and `slideIn` are `fade_in`, `scale_in`
and `slide_in`, with `FADE_DISTANCE` and `SLIDE_OFFSETS`.
-/

namespace Showreel

/-- Opacity and transform of an element on its way into view. -/
structure Entrance (α : Type) [Arith α] where
  opacity : α := 1.0
  moveX : α := 0.0
  moveY : α := 0.0
  scale : α := 1.0

/-- Where a fading element drifts from. -/
inductive FadeDirection where
  | up
  | down
  | none
  deriving DecidableEq, Repr

def FadeDirection.ofName? (s : String) : Option FadeDirection :=
  [("up", FadeDirection.up), ("down", .down), ("none", .none)].lookup s

/-- The side from which an element slides in. -/
inductive SlideDirection where
  | left
  | right
  | up
  | down
  deriving DecidableEq, Repr

def SlideDirection.ofName? (s : String) : Option SlideDirection :=
  [("left", SlideDirection.left), ("right", .right), ("up", .up), ("down", .down)].lookup s

/-- The place from which a slide starts, relative to its end. -/
def SlideDirection.offset : SlideDirection → Int × Int
  | .left => (-40, 0)
  | .right => (40, 0)
  | .up => (0, -40)
  | .down => (0, 40)

namespace Entrance

variable {α : Type}

open Arith

def snapshot [Arith α] (e : Entrance α) : Snapshot α :=
  .record "Entrance"
    [("opacity", .number e.opacity), ("translate_x", .number e.moveX),
      ("translate_y", .number e.moveY), ("scale", .number e.scale)]

def fadeDistance : Int := 8

/-- A fade over a window of frames, rising or dropping into place or only fading. -/
def fadeIn [Arith α] (frame start length : α) (direction : Choice FadeDirection) :
    Except Fault (Entrance α) := do
  let window := [start, ← add start length]
  let opacity ← ramp frame window [ofInt 0, ofInt 1]
  let moveY ← match direction with
    | .known .up => ramp frame window [ofInt fadeDistance, ofInt 0]
    | .known .down => ramp frame window [ofInt (-fadeDistance), ofInt 0]
    | .known .none => .ok 0.0
    | .unknown label => do reject (.unknownFadeDirection (← label.shown))
  return { opacity, moveY }

variable [Arith α]

/-- What an element shows at the progress of its pop. -/
def popped (progress : α) : Except Fault (Entrance α) := do
  let opacity ← saturate progress
  let scale ← rampOnward progress [ofInt 0, ofInt 1] [0.5, ofInt 1]
  return { opacity, scale }

/-- The side that a setting names; what is no key can name none. -/
def slideSide (direction : Choice SlideDirection) : Except Fault SlideDirection :=
  match direction with
  | .known side => .ok side
  | .unknown label => do
    if label.isKey then reject (.unknownSlideDirection (← label.shown)) else .error .wrongType

/-- What an element shows at the progress of its slide from a side. -/
def slid (side : SlideDirection) (progress : α) : Except Fault (Entrance α) := do
  let (dx, dy) := side.offset
  let opacity ← saturate progress
  let moveX ← rampOnward progress [ofInt 0, ofInt 1] [ofInt dx, ofInt 0]
  let moveY ← rampOnward progress [ofInt 0, ofInt 1] [ofInt dy, ofInt 0]
  return { opacity, moveX, moveY }

/-- A pop from half to full size, driven by a spring. -/
def scaleIn (spring : Spring.Motion α) (start frame : α) : Except Fault (Entrance α) := do
  popped (← spring.progress start none frame)

/-- A slide into place, driven by a spring that may be stretched to a length. -/
def slideIn (spring : Spring.Motion α) (direction : Choice SlideDirection) (start : α)
    (length : Option α) (frame : α) : Except Fault (Entrance α) := do
  let side ← slideSide direction
  slid side (← spring.progress start length frame)

end Entrance

end Showreel
