import Showreel.Timeline.Basic

/-!
# Composed frames

A frame of a timeline is composed of one layer for each segment to be seen, bottom first. A layer
carries the segment's own frame, what its scene shows there, and the effect of the transitions in
whose windows it lies. A composed frame is itself a snapshot, so a timeline can be a segment of
another one.

These are `Layer` and `ComposedFrame` of the composer; `frameAt` is `frame_at` of a `Timeline`,
`effectAt` is `_effect_for`, and `asSegment` is `as_segment`.
-/

namespace Showreel

structure Layer (α : Type) where
  index : Nat
  name : Document
  localFrame : α
  effect : LayerEffect α
  state : Snapshot α

/-- Everything to be seen at one frame, bottom layer first. -/
structure ComposedFrame (α : Type) where
  globalFrame : α
  layers : List (Layer α)

section Snapshots

variable {α : Type} [Arith α]

def Layer.snapshot (l : Layer α) : Snapshot α :=
  .record "Layer"
    [("segment_index", .count l.index), ("name", .given l.name),
      ("local_frame", .number l.localFrame), ("effect", l.effect.snapshot), ("state", l.state)]

def ComposedFrame.snapshot (f : ComposedFrame α) : Snapshot α :=
  .record "ComposedFrame"
    [("global_frame", .number f.globalFrame), ("layers", .tuple (f.layers.map Layer.snapshot))]

def ComposedFrame.top (f : ComposedFrame α) : Except Fault (Layer α) :=
  match f.layers.getLast? with
  | some layer => .ok layer
  | none => .error .noSuchIndex

/-- The lowest layer of a name. -/
def ComposedFrame.layer? (f : ComposedFrame α) (name : Document) : Option (Layer α) :=
  f.layers.find? fun layer => layer.name.equal name

end Snapshots

namespace Timeline

variable {α : Type} [Arith α]

open Arith

/-- A transition in whose window a frame lies, what drives it, and how far into it the frame is. -/
structure Window (α : Type) where
  transition : Transition α
  drive : Drive α
  offset : α

/-- The window in which a segment comes in, over the one in front of it. A segment that is to be
seen has started, so only the end of the window is asked for. -/
def incomingWindow (t : Timeline α) (index : Nat) (frame : α) :
    Except Fault (Option (Window α)) := do
  match index with
  | 0 => return none
  | i + 1 =>
    let transition ← entryAt t.transitions i
    let offset ← sub frame (← entryAt t.starts index)
    if ← lt offset transition.length then
      return some { transition, drive := ← entryAt t.drives i, offset }
    else return none

/-- The window in which a segment goes out, under the one behind it. -/
def outgoingWindow (t : Timeline α) (index : Nat) (frame : α) :
    Except Fault (Option (Window α)) := do
  match t.transitions[index]? with
  | none => return none
  | some transition =>
    let offset ← sub frame (← entryAt t.starts (index + 1))
    if ← between offset (ofInt 0) transition.length then
      return some { transition, drive := ← entryAt t.drives index, offset }
    else return none

/-- The effects of a window on the outgoing and the incoming layer. -/
def Window.effects (w : Window α) : Except Fault (LayerEffect α × LayerEffect α) := do
  Presentation.effectsOf w.transition.presentation
    (← w.drive.progress w.transition.length w.offset)

/-- The effect on a segment's layer at a frame: that of coming in, then that of going out. -/
def effectAt (t : Timeline α) (index : Nat) (frame : α) : Except Fault (LayerEffect α) := do
  let entered ← match ← t.incomingWindow index frame with
    | some w => LayerEffect.full.combine (← w.effects).2
    | none => .ok LayerEffect.full
  match ← t.outgoingWindow index frame with
  | some w => entered.combine (← w.effects).1
  | none => return entered

def layerAt (t : Timeline α) (frame : α) (index : Nat) : Except Fault (Layer α) := do
  let segment ← entryAt t.segments index
  let localFrame ← sub frame (← entryAt t.starts index)
  let effect ← t.effectAt index frame
  let state ← segment.scene localFrame
  return { index, name := segment.name, localFrame, effect, state }

/-- Composes a frame; one outside the timeline is taken for its first or last one. -/
def frameAt (t : Timeline α) (frame : α) : Except Fault (ComposedFrame α) := do
  let frame ← t.clampFrame frame
  let layers ← (← t.activeSegments frame).mapM (t.layerAt frame)
  return { globalFrame := frame, layers }

/-- The timeline as a segment of another one, under a name of its own if one is given. -/
def asSegment (t : Timeline α) (name : Document) : Except Fault (Segment α) := do
  Segment.build (← t.duration) (fun frame => do return (← t.frameAt frame).snapshot)
    (name.orElse t.name)

end Timeline

end Showreel
