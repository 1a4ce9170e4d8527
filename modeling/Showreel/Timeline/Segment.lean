import Showreel.Effect
import Showreel.Spring.Motion

/-!
# Segments and transitions

A composition is written as segments joined by transitions. A segment is a scene with a length and a
name; a transition overlaps the end of one segment with the beginning of the next.

These are `Segment` and `Transition` of the composer, `build` being the check either makes; `eased`
and `sprung` are `linear_timing` and `spring_timing`, and `Transition.progress` is `progress`.
-/

namespace Showreel

variable {α : Type}

/-- A scene placed in a composition: what it shows at each of its own frames, for how long, under a
name. -/
structure Segment (α : Type) where
  length : α
  scene : α → Except Fault (Snapshot α)
  name : Document

/-- Places a scene, which must last longer than nothing. -/
def Segment.build [Arith α] (length : α) (scene : α → Except Fault (Snapshot α))
    (name : Document) : Except Fault (Segment α) := do
  if ← Arith.le length (Arith.ofInt 0) then
    reject (.segmentTooShort (← name.shown) (← Arith.shown length))
  else return { length, scene, name }

/-- An overlap of two segments. Its progress is an easing of the way through the window, or a spring
that settles at the end of the window. -/
structure Transition (α : Type) where
  length : α
  presentation : Choice Presentation
  easing : α → Except Fault α
  spring : Option (Spring.Config α) := none

namespace Transition

variable [Arith α]

/-- A transition, whose length must not be negative. -/
def build (length : α) (presentation : Choice Presentation) (easing : α → Except Fault α)
    (spring : Option (Spring.Config α)) : Except Fault (Transition α) := do
  if ← Arith.lt length (Arith.ofInt 0) then reject (.transitionNegative (← Arith.shown length))
  else return { length, presentation, easing, spring }

def eased (length : α) (presentation : Choice Presentation) (easing : α → Except Fault α) :
    Except Fault (Transition α) :=
  build length presentation easing none

def sprung (length : α) (config : Spring.Config α) (presentation : Choice Presentation) :
    Except Fault (Transition α) :=
  build length presentation Easing.linear.apply (some config)

end Transition

/-- What drives a transition over its window. -/
inductive Drive (α : Type) where
  | easing (ease : α → Except Fault α)
  | spring (motion : Spring.Motion α)

/-- What drives a transition at a number of frames per second. -/
def Transition.drive [Arith α] [Spring.Animated α] (t : Transition α) (fps : α) : Drive α :=
  match t.spring with
  | some config => .spring (Spring.Animated.motion fps config)
  | none => .easing t.easing

/-- The progress, between zero and one, at an offset into a window of some length, to which a spring
is stretched. -/
def Drive.progress [Arith α] (d : Drive α) (length offset : α) : Except Fault α := do
  let value ← match d with
    | .easing ease => ease (← Arith.div offset length)
    | .spring motion => motion.progress (Arith.ofInt 0) (some length) offset
  Arith.saturate value

/-- The progress, between zero and one, at an offset into the window. -/
def Transition.progress [Arith α] [Spring.Animated α] (t : Transition α) (offset fps : α) :
    Except Fault α :=
  (t.drive fps).progress t.length offset

/-- What may stand in the list from which a composition is made; of anything else only the kind is
known. -/
inductive Item (α : Type) where
  | segment (s : Segment α)
  | transition (t : Transition α)
  | other (kind : String)

def Item.kind : Item α → String
  | .segment _ => "Segment"
  | .transition _ => "Transition"
  | .other kind => kind

end Showreel
