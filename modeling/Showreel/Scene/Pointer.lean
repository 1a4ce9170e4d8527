import Showreel.Curve
import Showreel.Document.Operand
import Showreel.Snapshot

/-!
# Pointers

A mouse pointer moves between named stops, each reached at a frame, along two curves. While it
clicks, a ripple spreads from it, over and over in a cycle of frames.

In the scene state, `Waypoints` is `Waypoints`, with its `position` and `frame_of`, `Pointer` is
`CursorState`, `along` is `cursor`, and `ripple` with its cycle is `ripple` with `BLINK_CYCLE`.
-/

namespace Showreel

/-- The length of the cycle in which ripples spread and carets blink. -/
def blinkCycle : Int := 16

/-- A named place that a pointer reaches at a frame. -/
structure Stop (α : Type) where
  name : Document
  frame : α
  x : α
  y : α

/-- The stops of a pointer and the two curves through them. A stop that is not made of four parts
has none of them; that is found out by who looks for it. -/
structure Waypoints (α : Type) where
  stops : List (Option (Stop α))
  horizontal : Curve α
  vertical : Curve α

namespace Waypoints

def coordinate {α : Type} [Arith α] (frames values : List α) : Except Fault (Curve α) :=
  Curve.build frames values (.known .clamp) (.known .clamp) none

/-- Makes waypoints of stops, at least two and in the order of their frames. -/
def build {α : Type} [Arith α] (stops : List (Stop α)) : Except Fault (Waypoints α) := do
  let horizontal ← coordinate (stops.map Stop.frame) (stops.map Stop.x)
  let vertical ← coordinate (stops.map Stop.frame) (stops.map Stop.y)
  return { stops := stops.map some, horizontal, vertical }

/-- Reads a stop: a name, a frame and two coordinates. -/
def stop? (row : Document) : Option (Stop Document) :=
  match row.items with
  | .ok [name, frame, x, y] => some { name, frame, x, y }
  | _ => none

/-- Makes waypoints of rows, whose frames and coordinates are read column by column. -/
def ofRows (rows : List Document) : Except Fault (Waypoints Document) := do
  let frames ← rows.mapM fun row => row.part 1
  let horizontal ← coordinate frames (← rows.mapM fun row => row.part 2)
  let vertical ← coordinate frames (← rows.mapM fun row => row.part 3)
  return { stops := rows.map stop?, horizontal, vertical }

/-- The frame of the first stop of a name; every stop on the way to it must be a whole one. -/
def findFrame {α : Type} (name : Document) : List (Option (Stop α)) → Except Fault α
  | [] => .error (.unknownName name.name?)
  | none :: _ => .error .badValue
  | some stop :: rest => if stop.name.equal name then .ok stop.frame else findFrame name rest

def frameOf {α : Type} (w : Waypoints α) (name : Document) : Except Fault α :=
  findFrame name w.stops

variable {α : Type} [Arith α]

def position (w : Waypoints α) (frame : α) : Except Fault (α × α) := do
  return (← w.horizontal.valueAt frame, ← w.vertical.valueAt frame)

/-- Waypoints through named places with whole coordinates. -/
def through (stops : List (String × Int × Int × Int)) : Except Fault (Waypoints α) :=
  build (stops.map fun (name, frame, x, y) =>
    { name := .text name, frame := Arith.ofInt frame, x := Arith.ofInt x, y := Arith.ofInt y })

end Waypoints

/-- The pointer at a frame. Whether it clicks is kept as it was given. -/
structure Pointer (α : Type) [Arith α] where
  x : α := 0.0
  y : α := 0.0
  visible : Bool := false
  clicking : Document := .flag false
  rippleRadius : α := 0.0
  rippleOpacity : α := 0.0

namespace Pointer

variable {α : Type} [Arith α]

open Arith

def snapshot (p : Pointer α) : Snapshot α :=
  .record "CursorState"
    [("x", .number p.x), ("y", .number p.y), ("visible", .flag p.visible),
      ("clicking", .given p.clicking), ("ripple_radius", .number p.rippleRadius),
      ("ripple_opacity", .number p.rippleOpacity)]

/-- Radius and opacity of the ripple around a click; nothing without one. -/
def ripple (frame : α) (clicking : Bool) : Except Fault (α × α) :=
  if clicking then do
    let phase ← modulo frame (ofInt blinkCycle)
    return (← ramp phase [ofInt 0, ofInt 8] [ofInt 0, ofInt 20],
      ← ramp phase [ofInt 0, ofInt 8] [0.5, ofInt 0])
  else .ok (0.0, 0.0)

/-- The pointer at a frame, hidden unless it has waypoints and is to be seen. -/
def along (frame : α) (waypoints : Option (Waypoints α)) (visible : Bool) (clicking : Document) :
    Except Fault (Pointer α) :=
  match waypoints, visible with
  | some waypoints, true => do
    let (x, y) ← waypoints.position frame
    let (rippleRadius, rippleOpacity) ← ripple frame clicking.isTrue
    return { x, y, visible := true, clicking, rippleRadius, rippleOpacity }
  | _, _ => .ok {}

/-- The pointer of a scene at a frame, on its way through whole places. -/
def onPath (frame : α) (path : List (String × Int × Int × Int)) (visible clicking : Bool) :
    Except Fault (Pointer α) := do
  along frame (some (← Waypoints.through path)) visible (.flag clicking)

end Pointer

end Showreel
