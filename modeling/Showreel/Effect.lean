import Showreel.Easing
import Showreel.Snapshot

/-!
# Layer effects

During a transition two layers are drawn at once, the outgoing one below the incoming one. A
presentation turns the progress of the transition into the effect on both: opacity, offset in
fractions of the frame, and scale around its centre. A layer that takes part in two transitions
carries both effects combined.

This is the composer's `LayerEffect` with `FULL`, `HIDDEN` and `combine`, and its
`TransitionEngine`: `Presentation` is `TransitionType`, `effectsOf` is `apply_transition`, `slide`
is `_slide`, and `zoom` is what `_zoom_in` and `_zoom_out` share.
-/

namespace Showreel

structure LayerEffect (α : Type) where
  opacity : α
  offsetX : α
  offsetY : α
  scale : α

namespace LayerEffect

variable {α : Type} [Arith α]

open Arith

def full : LayerEffect α := { opacity := 1.0, offsetX := 0.0, offsetY := 0.0, scale := 1.0 }

def faded (opacity : α) : LayerEffect α := { full with opacity }

def invisible : LayerEffect α := faded 0.0

def shifted (offsetX : α) : LayerEffect α := { full with offsetX }

/-- Two effects on one layer: opacities and scales multiply, offsets add. -/
def combine (first second : LayerEffect α) : Except Fault (LayerEffect α) := do
  return {
    opacity := ← mul first.opacity second.opacity
    offsetX := ← add first.offsetX second.offsetX
    offsetY := ← add first.offsetY second.offsetY
    scale := ← mul first.scale second.scale }

def snapshot (e : LayerEffect α) : Snapshot α :=
  .record "LayerEffect"
    [("opacity", .number e.opacity), ("offset_x", .number e.offsetX),
      ("offset_y", .number e.offsetY), ("scale", .number e.scale)]

end LayerEffect

/-- The ways in which one scene gives way to the next. -/
inductive Presentation where
  | cut
  | crossfade
  | fadeBlack
  | slideLeft
  | slideRight
  | zoomIn
  | zoomOut
  deriving DecidableEq, Repr

namespace Presentation

/-- Every presentation, in the order in which they are listed. -/
def all : List Presentation :=
  [cut, crossfade, fadeBlack, slideLeft, slideRight, zoomIn, zoomOut]

def name : Presentation → String
  | cut => "cut"
  | crossfade => "crossfade"
  | fadeBlack => "fade_black"
  | slideLeft => "slide_left"
  | slideRight => "slide_right"
  | zoomIn => "zoom_in"
  | zoomOut => "zoom_out"

def ofName? (s : String) : Option Presentation := all.find? fun p => p.name == s

variable {α : Type} [Arith α]

open Arith LayerEffect

/-- The outgoing layer is pushed off one edge by the incoming one, which enters from the other;
`sign` is one if it enters from the right and minus one if it enters from the left. -/
def slide (progress : α) (sign : Int) : Except Fault (LayerEffect α × LayerEffect α) := do
  let eased ← Easing.easeOutCubic.apply progress
  return (shifted (← mul (ofInt (-sign)) eased), shifted (← mul (ofInt sign) (← sub 1.0 eased)))

/-- How much faster a zooming layer fades in than it grows or shrinks. -/
def zoomFade : α := 1.5

/-- The incoming layer fades in while its size is found from the eased progress. -/
def zoom (progress : α) (size : α → Except Fault α) :
    Except Fault (LayerEffect α × LayerEffect α) := do
  let eased ← Easing.easeOutCubic.apply progress
  let opacity ← least 1.0 (← mul eased zoomFade)
  return (full, { full with opacity, scale := ← size eased })

def growing (eased : α) : Except Fault α := do add 0.3 (← mul 0.7 eased)

def shrinking (eased : α) : Except Fault α := do sub 1.5 (← mul 0.5 eased)

/-- The effects on the outgoing and the incoming layer at a progress. -/
def effects (p : Presentation) (progress : α) : Except Fault (LayerEffect α × LayerEffect α) :=
  match p with
  | crossfade => do return (faded (← sub 1.0 progress), faded progress)
  | fadeBlack => do
    let outgoing ← greatest 0.0 (← sub 1.0 (← mul 2.0 progress))
    let incoming ← greatest 0.0 (← sub (← mul 2.0 progress) 1.0)
    return (faded outgoing, faded incoming)
  | cut => do if ← lt progress 0.5 then return (full, invisible) else return (invisible, full)
  | slideLeft => slide progress 1
  | slideRight => slide progress (-1)
  | zoomIn => zoom progress growing
  | zoomOut => zoom progress shrinking

def effectsOf (p : Choice Presentation) (progress : α) :
    Except Fault (LayerEffect α × LayerEffect α) :=
  match p with
  | .known p => p.effects progress
  | .unknown label => do reject (.unsupportedPresentation (← label.quoted))

end Presentation

end Showreel
