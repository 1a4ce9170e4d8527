import Showreel.Arith
import Showreel.Document

/-!
# Typed text

Text that is being typed shows one more character every few frames. Characters are code points; a
list may be typed as well, item by item.

In the program's timing helpers, `duration` is `char_frames`, `finish` is `typing_end`, `revealed`
is `revealed_chars` and `shownText` is `typed_text`.
-/

namespace Showreel.Typing

variable {α : Type} [Arith α]

open Arith

/-- The frames that typing a text takes. -/
def duration (text : Document) (framesPerChar : α) : Except Fault α := do
  mul (ofInt (← text.size)) framesPerChar

/-- The first frame at which the whole text is shown. -/
def finish (text : Document) (framesPerChar start : α) : Except Fault α := do
  add start (← duration text framesPerChar)

/-- The number of characters shown at a frame. -/
def revealed (frame : α) (text : Document) (framesPerChar start : α) : Except Fault Int := do
  if ← lt frame start then return 0
  else
    let typed ← floor (← div (← sub frame start) framesPerChar)
    return max 0 (min (← text.size) typed)

/-- The text shown at a frame. -/
def shownText (frame : α) (text : Document) (framesPerChar start : α) : Except Fault Document := do
  text.front (← revealed frame text framesPerChar start).toNat

end Showreel.Typing
