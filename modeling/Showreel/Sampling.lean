import Showreel.Document.Operand
import Showreel.Timeline.Frame

/-!
# Sampling

Samples of a timeline are its frames at the places of a range, or one number read off each frame.
Places outside the timeline show its first or last frame.

In the composer's export, `sampleFrames` is `sample_frames` and `sampleChannel` is `sample_channel`,
a `Reading` being one getter to read with; `Places` is `range`, and `frameCount` is `len` of a
timeline.
-/

namespace Showreel

/-- Equally spaced places. -/
structure Places where
  start : Int
  step : Int
  count : Nat

namespace Places

/-- The places from `start` on in steps of `step`, in front of `stop`. -/
def ofRange (start stop step : Int) : Except Fault Places :=
  if step = 0 then .error .badValue
  else
    let way := if 0 < step then stop - start else start - stop
    .ok { start, step, count := ((way + step.natAbs - 1) / step.natAbs).toNat }

def toList (p : Places) : List Int := (List.range p.count).map fun k : Nat => p.start + k * p.step

/-- Visits `count` places from `place` on until one fails; `visited` holds what was found at those
before, last first. -/
def visitFrom {β : Type} (visit : Int → Except Fault β) (step : Int) :
    Nat → Int → List β → Except Fault (List β)
  | 0, _, visited => .ok visited.reverse
  | count + 1, place, visited => do
    visitFrom visit step count (place + step) ((← visit place) :: visited)

/-- Visits all places, in order, until one fails. -/
def mapM {β : Type} (p : Places) (visit : Int → Except Fault β) : Except Fault (List β) :=
  visitFrom visit p.step p.count p.start []

end Places

/-- A number that can be read off a composed frame. -/
inductive Reading where
  | topOpacity
  | bottomOpacity
  | opacitySum
  | layers
  | topLocalFrame
  deriving DecidableEq, Repr

namespace Reading

def all : List Reading := [topOpacity, bottomOpacity, opacitySum, layers, topLocalFrame]

def name : Reading → String
  | topOpacity => "top_opacity"
  | bottomOpacity => "bottom_opacity"
  | opacitySum => "opacity_sum"
  | layers => "layers"
  | topLocalFrame => "top_local_frame"

def ofName? (s : String) : Option Reading := all.find? fun r => r.name == s

def of {α : Type} [Arith α] (r : Reading) (frame : ComposedFrame α) : Except Fault α :=
  match r with
  | topOpacity => return (← frame.top).effect.opacity
  | bottomOpacity => return (← entryAt frame.layers 0).effect.opacity
  | opacitySum => Arith.total (frame.layers.map fun layer => layer.effect.opacity)
  | layers => .ok (Arith.ofInt frame.layers.length)
  | topLocalFrame => return (← frame.top).localFrame

end Reading

namespace Timeline

/-- The number of frames as a count, which a double cannot be and which must fit into 63 bits. -/
def frameCount (t : Timeline Document) : Except Fault Nat := do
  let n ← (← t.duration).index
  if n < 0 then .error .badValue
  else if Int.pow 2 63 ≤ n then .error .overflow
  else return n.toNat

/-- The frames from `start` on in steps of `step`, in front of `stop` or up to the end. -/
def sampleFrames (t : Timeline Document) (start : Document) (stop : Option Document)
    (step : Document) : Except Fault (List (ComposedFrame Document)) := do
  let stop ← match stop with
    | some stop => .ok stop
    | none => t.duration
  let places ← Places.ofRange (← start.index) (← stop.index) (← step.index)
  places.mapM fun place => t.frameAt (.int place)

/-- One number read off a frame, as a double. -/
def readAt (t : Timeline Document) (getter : ComposedFrame Document → Except Fault Document)
    (frame : Document) : Except Fault Document := do
  Arith.widen (← getter (← t.frameAt frame))

/-- One number read off each of some frames, or of all. -/
def sampleChannel (t : Timeline Document) (getter : ComposedFrame Document → Except Fault Document)
    (frames : Option (List Document)) : Except Fault (List Document) :=
  match frames with
  | some frames => frames.mapM (t.readAt getter)
  | none => do
    let places ← Places.ofRange 0 (← (← t.duration).index) 1
    places.mapM fun place => t.readAt getter (.int place)

/-- A channel of one of the known readings. -/
def sampleReading (t : Timeline Document) (reading : Reading) (frames : Option (List Document)) :
    Except Fault (List Document) :=
  t.sampleChannel reading.of frames

end Timeline

end Showreel
