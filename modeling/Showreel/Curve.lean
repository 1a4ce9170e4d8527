import Showreel.Document.Operand
import Showreel.Easing

/-!
# Keyframe curves

A curve runs through values at given breakpoints, straight between two of them unless an easing
bends the way. Breakpoints never decrease; where several are equal the curve jumps there and the
last value holds. In front of the first breakpoint and from the last one on, the curve either holds
its edge value or goes on with the slope of the edge segment.

A `Curve` is `KeyframeSet` of the animation helpers: `build` is its `_validate`, `valueAt` its `at`,
and `extended` is `_extend`. `interpolate` and `interpolateVectors` are `interpolate` and
`interpolate_channels`.
-/

namespace Showreel

/-- What a curve does beyond its first or last breakpoint. -/
inductive Extrapolation where
  | clamp
  | extend
  deriving DecidableEq, Repr

def Extrapolation.ofName? (s : String) : Option Extrapolation :=
  if s = "clamp" then some .clamp else if s = "extend" then some .extend else none

structure Curve (α : Type) where
  breakpoints : List α
  values : List α
  before : Extrapolation := .clamp
  after : Extrapolation := .clamp
  easing : Option (α → Except Fault α) := none

namespace Curve

variable {α : Type} [Arith α]

open Arith

/-- Whether some entry is strictly below the one in front of it. -/
def decreases : List α → Except Fault Bool
  | a :: b :: rest => do
    if ← lt b a then return true else decreases (b :: rest)
  | _ => .ok false

def policy : Choice Extrapolation → Except Fault Extrapolation
  | .known p => .ok p
  | .unknown label => do reject (.unknownExtrapolation (← label.shown))

/-- Makes a curve: as many values as breakpoints, at least two, in order, with known policies. -/
def build (breakpoints values : List α) (before after : Choice Extrapolation)
    (easing : Option (α → Except Fault α)) : Except Fault (Curve α) := do
  if breakpoints.length ≠ values.length then
    reject (.keyframeCounts breakpoints.length values.length)
  if breakpoints.length < 2 then
    reject .tooFewKeyframes
  if ← decreases breakpoints then
    reject (.decreasingBreakpoints (← breakpoints.mapM quoted))
  let before ← policy before
  let after ← policy after
  return { breakpoints, values, before, after, easing }

/-- The line through two keyframes, a step where they share a breakpoint. -/
def extended (frame b₀ b₁ v₀ v₁ : α) : Except Fault α := do
  if b₁ == b₀ then
    if ← lt frame b₀ then widen v₀ else widen v₁
  else
    let rise ← sub v₁ v₀
    let slope ← div rise (← sub b₁ b₀)
    let way ← mul slope (← sub frame b₀)
    add v₀ way

/-- The curve from the breakpoint at position `i` to the next one. -/
def within (c : Curve α) (i : Nat) (frame : α) : Except Fault α := do
  let b₀ ← entryAt c.breakpoints i
  let b₁ ← entryAt c.breakpoints (i + 1)
  let v₀ ← entryAt c.values i
  let v₁ ← entryAt c.values (i + 1)
  if b₁ == b₀ then widen v₁
  else
    let way ← sub frame b₀
    let progress ← div way (← sub b₁ b₀)
    let eased ← match c.easing with
      | some e => e progress
      | none => .ok progress
    let rise ← sub v₁ v₀
    add v₀ (← mul rise eased)

def beyond (c : Curve α) (frame last : α) : Except Fault α := do
  let n := c.breakpoints.length
  let vLast ← entryAt c.values (n - 1)
  match c.after with
  | .clamp => widen vLast
  | .extend =>
    if ← lt last frame then
      extended frame (← entryAt c.breakpoints (n - 2)) last (← entryAt c.values (n - 2)) vLast
    else widen vLast

def ahead (c : Curve α) (frame first : α) : Except Fault α := do
  let vFirst ← entryAt c.values 0
  match c.before with
  | .clamp => widen vFirst
  | .extend =>
    extended frame first (← entryAt c.breakpoints 1) vFirst (← entryAt c.values 1)

def valueAt (c : Curve α) (frame : α) : Except Fault α := do
  let last ← entryAt c.breakpoints (c.breakpoints.length - 1)
  if ← le last frame then c.beyond frame last
  else
    let first ← entryAt c.breakpoints 0
    if ← lt frame first then c.ahead frame first
    else c.within ((← countUpTo c.breakpoints frame) - 1) frame

end Curve

variable {α : Type} [Arith α]

def interpolate (frame : α) (breakpoints values : List α) (before after : Choice Extrapolation)
    (easing : Option (α → Except Fault α)) : Except Fault α := do
  (← Curve.build breakpoints values before after easing).valueAt frame

/-- A frame mapped through a curve that holds its edge values. -/
def ramp (frame : α) (breakpoints values : List α) : Except Fault α :=
  interpolate frame breakpoints values (.known .clamp) (.known .clamp) none

/-- A frame mapped through a curve that goes on beyond its last breakpoint. -/
def rampOnward (frame : α) (breakpoints values : List α) : Except Fault α :=
  interpolate frame breakpoints values (.known .clamp) (.known .extend) none

/-- A frame mapped through a curve that goes on beyond both ends. -/
def rampThrough (frame : α) (breakpoints values : List α) : Except Fault α :=
  interpolate frame breakpoints values (.known .extend) (.known .extend) none

/-- Whether some size differs from `width`; sizes behind the first that does are not asked for. -/
def anyOther (width : Nat) : List (Except Fault Nat) → Except Fault Bool
  | [] => .ok false
  | size :: rest => do
    if (← size) = width then anyOther width rest else return true

/-- A frame mapped through curves of the channels of vectors: their sizes must be equal, and
`channel` gives the component of every vector at one position. -/
def interpolateAcross (frame : α) (breakpoints : Except Fault (List α))
    (sizes : List (Except Fault Nat)) (channel : Nat → Except Fault (List α))
    (before after : Choice Extrapolation) (easing : Option (α → Except Fault α)) :
    Except Fault (List α) :=
  match sizes with
  | [] => reject .tooFewKeyframes
  | size :: _ => do
    let width ← size
    if ← anyOther width sizes then
      reject .unequalVectors
    (List.range width).mapM fun c => do
      let values ← channel c
      interpolate frame (← breakpoints) values before after easing

/-- A frame mapped through a curve of vectors, one channel at a time. -/
def interpolateChannels (frame : α) (breakpoints : Except Fault (List α)) (vectors : List (List α))
    (before after : Choice Extrapolation) (easing : Option (α → Except Fault α)) :
    Except Fault (List α) :=
  interpolateAcross frame breakpoints (vectors.map fun v => .ok v.length)
    (fun c => vectors.mapM fun v => entryAt v c) before after easing

/-- The vectors in a document; there must be a first one. -/
def vectorsOf (v : Document) : Except Fault (List Document) := do
  if !v.isTrue then
    reject .tooFewKeyframes
  let _ ← v.part 0
  v.items

/-- A frame mapped through a curve of vectors in a document, whose components may be of any kind. -/
def interpolateVectors (frame breakpoints vectors : Document) (before after : Choice Extrapolation)
    (easing : Option (Document → Except Fault Document)) : Except Fault (List Document) := do
  let vectors ← vectorsOf vectors
  interpolateAcross frame breakpoints.items (vectors.map Document.size)
    (fun c => vectors.mapM fun v => v.part c) before after easing

end Showreel
