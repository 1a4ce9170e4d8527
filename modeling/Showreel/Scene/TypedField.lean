import Showreel.Curve
import Showreel.Snapshot
import Showreel.Typing
import Showreel.Scene.Pointer

/-!
# Typed fields

A text field that is being typed into, with a caret that blinks until shortly after the last
character.

This is `TypedField` of the scene state; `typedAt` is `typed_field` and `caretOpacityAt` is
`caret_opacity`.
-/

namespace Showreel

/-- A text field at a frame. Unless its caret is asked for, that request is kept as it was given. -/
structure TypedField (α : Type) [Arith α] where
  value : Document
  chars : Int
  complete : Bool
  caretVisible : Document
  caretOpacity : α

namespace TypedField

variable {α : Type} [Arith α]

open Arith

def snapshot (f : TypedField α) : Snapshot α :=
  .record "TypedField"
    [("value", .given f.value), ("chars", .count f.chars), ("complete", .flag f.complete),
      ("caret_visible", .given f.caretVisible), ("caret_opacity", .number f.caretOpacity)]

/-- The blinking caret: on, fading, off and back once in every cycle. -/
def caretOpacityAt (frame : α) : Except Fault α := do
  let phase ← modulo frame (ofInt blinkCycle)
  ramp phase ([0, 4, 8, 12, 16].map ofInt) ([1, 1, 0, 0, 1].map ofInt)

/-- The frames for which the caret stays after the last character. -/
def linger : Int := 10

/-- Whether the caret is to be seen: from the start on, until typing ended some time ago. -/
def caretShown (frame start finish : α) (complete : Bool) : Except Fault Bool := do
  if ← le start frame then
    if complete then return !(← lt (ofInt linger) (← sub frame finish)) else return true
  else return false

/-- The field at a frame, typed from `start` on. -/
def typedAt (frame : α) (text : Document) (start framesPerChar : α) (showCaret : Document) :
    Except Fault (TypedField α) := do
  let chars ← Typing.revealed frame text framesPerChar start
  let complete := decide (((← text.size) : Int) ≤ chars)
  let finish ← Typing.finish text framesPerChar start
  let caretVisible ←
    if showCaret.isTrue then do pure (.flag (← caretShown frame start finish complete))
    else .ok showCaret
  let value ← text.front chars.toNat
  let caretOpacity ← if caretVisible.isTrue then caretOpacityAt frame else .ok 0.0
  return { value, chars, complete, caretVisible, caretOpacity }

end TypedField

end Showreel
