import Showreel.Curve
import Showreel.Text.Integer

/-!
# Colours

A colour is written in hexadecimal, two characters to a channel, or given as its channels. Colours
blend channel by channel; a blended channel is rounded to the nearest integer, halves upwards.

Among the program's colours, `ofHex` is `hex_to_rgb`, `css` is `rgb_to_css` and `interpolateColour`
is `interpolate_color`; `ofDocument` is the choice it makes between text and channels.
-/

namespace Showreel

inductive Colour (α : Type) where
  | hex (text : String)
  | channels (values : List α)

namespace Colour

/-- One channel: two characters from a position on, read in base sixteen. -/
def hexChannel (cs : List Char) (i : Nat) : Except Fault Int :=
  match Text.integer? 16 ((cs.drop i).take 2) with
  | some n => .ok n
  | none => .error .badValue

/-- The channels of a colour in hexadecimal; number signs in front are skipped. -/
def ofHex (s : String) : Except Fault (List Int) :=
  let cs := s.toList.dropWhile (· = '#')
  [0, 2, 4].mapM (hexChannel cs)

def css (r g b : Int) : String :=
  "rgb(" ++ toString r ++ ", " ++ toString g ++ ", " ++ toString b ++ ")"

/-- The style sheet form of a colour with three channels. -/
def css? : List Int → Option String
  | [r, g, b] => some (css r g b)
  | _ => none

variable {α : Type} [Arith α]

def vector : Colour α → Except Fault (List α)
  | .hex s => do return (← ofHex s).map Arith.ofInt
  | .channels values => .ok values

/-- The channels of a colour in a document: text in hexadecimal, or a sequence of channels. -/
def ofDocument : Document → Except Fault (List Document)
  | .text s => do return (← ofHex s).map .int
  | v => v.items

/-- The nearest integer, halves going up. -/
def roundChannel (x : α) : Except Fault Int := do
  Arith.floor (← Arith.add x 0.5)

end Colour

/-- A value mapped through a curve of the channels of colours. -/
def blend {α : Type} [Arith α] (value : α) (breakpoints : Except Fault (List α))
    (vectors : List (List α)) (before after : Choice Extrapolation)
    (easing : Option (α → Except Fault α)) : Except Fault (List Int) := do
  let channels ← interpolateChannels value breakpoints vectors before after easing
  channels.mapM Colour.roundChannel

def interpolateColour {α : Type} [Arith α] (value : α) (breakpoints : List α)
    (colours : List (Colour α)) (before after : Choice Extrapolation)
    (easing : Option (α → Except Fault α)) : Except Fault (List Int) := do
  blend value (.ok breakpoints) (← colours.mapM Colour.vector) before after easing

end Showreel
