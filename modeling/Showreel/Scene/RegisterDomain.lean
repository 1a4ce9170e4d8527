import Showreel.Scene.Phase
import Showreel.Scene.Pointer
import Showreel.Scene.Stage
import Showreel.Scene.TypedField

/-!
# Registering a domain

135 frames: a form appears, the user types a domain name and presses the button; the form fades out,
the address changes and the page of the domain fades in from below.

`State` is `RegisterDomainState` and `state` is `scene_state` of the `register_domain` scene; `path`
is its `CURSOR_PATH`.
-/

namespace Showreel.RegisterDomain

open Arith

def length : Int := 135

/-- The first frame at which the pointer is on screen. -/
def pointerAppears : Int := 15

/-- The frame at which the form begins to give way. -/
def pageTurns : Int := 75

/-- The frame at which the form is gone. -/
def pageTurned : Int := 82

/-- The frame at which the page of the domain is there. -/
def detailAppears : Int := 90

/-- The stops of the pointer: the input field, then the button. -/
def path : List (String × Int × Int × Int) :=
  [("input", 15, 420, 380), ("leave_input", 57, 420, 380), ("button", 63, 450, 478)]

structure State (α : Type) [Arith α] where
  browserUrl : String
  formOpacity : α
  formEntrance : Entrance α
  formInteractive : Bool
  domainInput : TypedField α
  inputFocused : Bool
  buttonHovered : Bool
  detailOpacity : α
  detailMoveY : α
  detailInteractive : Bool
  pointer : Pointer α

variable {α : Type}

def State.snapshot [Arith α] (s : State α) : Snapshot α :=
  .record "RegisterDomainState"
    [("browser_url", .text s.browserUrl), ("form_opacity", .number s.formOpacity),
      ("form_entrance", s.formEntrance.snapshot), ("form_interactive", .flag s.formInteractive),
      ("domain_input", s.domainInput.snapshot), ("input_focused", .flag s.inputFocused),
      ("button_hovered", .flag s.buttonHovered), ("detail_opacity", .number s.detailOpacity),
      ("detail_translate_y", .number s.detailMoveY),
      ("detail_interactive", .flag s.detailInteractive), ("cursor", s.pointer.snapshot)]

variable [Arith α]

def state (stage : Stage α) (frame : α) : Except Fault (State α) := do
  let clicking ← Phase.through frame 68 72
  let typing ← Phase.during frame pointerAppears pageTurns
  let rise ← stage.smooth.progress (ofInt detailAppears) Stage.settling frame
  let turned := !(← Phase.before frame pageTurned)
  return {
    browserUrl :=
      if turned then "deaddrop.io/domains/mycoolproject.com" else "deaddrop.io/domains/new"
    formOpacity := ← Phase.rampAt frame [pageTurns, pageTurned] [1, 0]
    formEntrance := ← Phase.fadeAt frame 0 14 .up
    formInteractive := !turned
    domainInput := ← TypedField.typedAt frame (.text "mycoolproject.com") (ofInt 17) (ofInt 2)
      (.flag typing)
    inputFocused := typing
    buttonHovered := ← Phase.during frame 62 pageTurns
    detailOpacity := ← Phase.rampAt frame [detailAppears - 8, detailAppears] [0, 1]
    detailMoveY := ← rampOnward rise [ofInt 0, ofInt 1] [ofInt 12, ofInt 0]
    detailInteractive := ← Phase.since frame detailAppears
    pointer := ← Pointer.onPath frame path typing clicking }

end Showreel.RegisterDomain
