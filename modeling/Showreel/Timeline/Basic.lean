import Showreel.Timeline.Segment

/-!
# Timelines

A timeline lays its segments out one after the other, each transition overlapping the end of one
segment with the beginning of the next. It knows where every segment starts and ends and what drives
every transition, and lasts as long as all segments together less all transitions.

This is `Timeline` of the composer: `split` is `_split_items`, `build` its constructor, `fromParts`
is `from_parts`, `duration` is `duration_in_frames`, `clampFrame` is `clamp_frame`, and
`activeSegments` is `active_segments`.
-/

namespace Showreel

/-- Segments joined by transitions, with the frames at which the segments start and end and with
what drives the transitions. -/
structure Timeline (α : Type) where
  fps : α
  name : Document
  segments : List (Segment α)
  transitions : List (Transition α)
  starts : List α
  ends : List α
  drives : List (Drive α)

namespace Timeline

variable {α : Type}

mutual

/-- Takes items apart where a segment is due. -/
def splitSegment : Nat → List (Item α) →
    Except Fault (List (Segment α) × List (Transition α))
  | _, [] => .ok ([], [])
  | position, item :: rest =>
    match item with
    | .segment s => do
      let (segments, transitions) ← splitTransition (position + 1) rest
      return (s :: segments, transitions)
    | item => reject (.misplacedItem position "Segment" item.kind)

/-- Takes items apart where a transition is due. -/
def splitTransition : Nat → List (Item α) →
    Except Fault (List (Segment α) × List (Transition α))
  | _, [] => .ok ([], [])
  | position, item :: rest =>
    match item with
    | .transition t => do
      let (segments, transitions) ← splitSegment (position + 1) rest
      return (segments, t :: transitions)
    | item => reject (.misplacedItem position "Transition" item.kind)

end

/-- The segments and the transitions of a list that begins and ends with a segment and
alternates. -/
def split (items : List (Item α)) : Except Fault (List (Segment α) × List (Transition α)) := do
  if items.isEmpty then
    reject .emptyTimeline
  let parts ← splitSegment 0 items
  if items.length % 2 = 0 then
    reject .endsInTransition
  return parts

variable [Arith α]

open Arith

/-- Refuses the first transition that is longer than one of the two segments that it joins. -/
def checkOverlaps : Nat → List (Segment α) → List (Transition α) → Except Fault Unit
  | index, before :: after :: rest, t :: ts => do
    if ← lt (← least before.length after.length) t.length then
      reject (.transitionTooLong index (← shown t.length) (← before.name.shown)
        (← shown before.length) (← after.name.shown) (← shown after.length))
    else checkOverlaps (index + 1) (after :: rest) ts
  | _, _, _ => .ok ()

/-- Where segments start, the first one at `start`. -/
def startsFrom (start : α) : List (Segment α) → List (Transition α) → Except Fault (List α)
  | s :: segments, t :: transitions => do
    let next ← sub (← add start s.length) t.length
    return start :: (← startsFrom next segments transitions)
  | _, _ => .ok [start]

/-- Where segments end that start at given frames. -/
def endsOf (starts : List α) (segments : List (Segment α)) : Except Fault (List α) :=
  (starts.zip segments).mapM fun (start, s) => add start s.length

/-- Makes a timeline of alternating segments and transitions. -/
def build [Spring.Animated α] (items : List (Item α)) (fps : α) (name : Document) :
    Except Fault (Timeline α) := do
  if ← le fps (ofInt 0) then
    reject (.fpsNotPositive (← shown fps))
  let (segments, transitions) ← split items
  checkOverlaps 0 segments transitions
  let starts ← startsFrom (ofInt 0) segments transitions
  let ends ← endsOf starts segments
  let drives := transitions.map fun t => t.drive fps
  return { fps, name, segments, transitions, starts, ends, drives }

/-- Segments with a transition between any two of them. -/
def interleave {β : Type} : List β → List β → List β
  | s :: s' :: segments, t :: transitions => s :: t :: interleave (s' :: segments) transitions
  | s :: _, [] => [s]
  | [s], _ => [s]
  | [], _ => []

/-- Makes a timeline of segments and the transitions between them. -/
def fromParts [Spring.Animated α] (segments transitions : List (Item α)) (fps : α)
    (name : Document) : Except Fault (Timeline α) :=
  if transitions.length ≠ segments.length - 1 then
    reject (.partsMismatch segments.length (segments.length - 1) transitions.length)
  else build (interleave segments transitions) fps name

/-- The number of frames that a timeline lasts. -/
def duration (t : Timeline α) : Except Fault α := do
  let shownFrames ← total (t.segments.map Segment.length)
  sub shownFrames (← total (t.transitions.map Transition.length))

/-- The frame itself, or the first or last one if it lies outside. -/
def clampFrame (t : Timeline α) (frame : α) : Except Fault α := do
  let last ← sub (← t.duration) (ofInt 1)
  greatest (ofInt 0) (← least frame last)

/-- Walks back from a segment as long as the one in front of it has not ended at the frame. Segments
end in order, so those that have not ended stand together. -/
def walkBack (ends : List α) (frame : α) : Nat → Except Fault Nat
  | 0 => .ok 0
  | i + 1 =>
    match ends[i]? with
    | some e => do
      if ← lt frame e then walkBack ends frame i else return i + 1
    | none => .ok (i + 1)

/-- The positions of the segments to be seen at a frame, bottom first. -/
def activeSegments (t : Timeline α) (frame : α) : Except Fault (List Nat) := do
  let frame ← t.clampFrame frame
  let last := (← countUpTo t.starts frame) - 1
  let first ← walkBack t.ends frame last
  return List.range' first (last + 1 - first)

end Timeline

end Showreel
