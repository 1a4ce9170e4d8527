import Showreel.Scene.CrossFade
import Showreel.Scene.Phase
import Showreel.Scene.Pointer
import Showreel.Scene.Stage
import Showreel.Scene.TypedField

/-!
# Embedding the widget

150 frames: the user copies the embed code, the view fades to the user's own site, a button pops up
on it, a panel opens and its form is filled in and sent, and a success message takes the panel's
place.

`State` is `EmbedWidgetState` and `state` is `scene_state` of the `embed_widget` scene; `formField`
is `_field`, and the paths are its `COPY_PATH` and `WIDGET_PATH`.
-/

namespace Showreel.EmbedWidget

open Arith

def length : Int := 150

/-- The frame at which the page of the tour begins to fade. -/
def fades : Int := 30

/-- The frame at which it is gone. -/
def faded : Int := 38

def siteAppears : Int := 34

def buttonAppears : Int := 60

def buttonClicked : Int := 75

def panelOpens : Int := 78

def sends : Int := 124

/-- The frames over which the success message comes in. -/
def success : List Int := [125, 130]

def succeeds : Int := 125

/-- The pointer's way to the copy button. -/
def copyPath : List (String × Int × Int × Int) :=
  [("enter", 8, 600, 300), ("copy_button", 16, 480, 440)]

/-- The pointer's way to the widget and to its send button. -/
def widgetPath : List (String × Int × Int × Int) :=
  [("enter", buttonAppears, 700, 500), ("approach", buttonClicked - 2, 830, 720),
    ("widget_button", buttonClicked, 830, 720), ("hold", panelOpens + 2, 830, 720),
    ("to_send", 122, 790, 620), ("send", sends, 790, 620)]

structure State (α : Type) [Arith α] where
  browserUrl : String
  deaddropVisible : Bool
  deaddropOpacity : α
  deaddropInteractive : Bool
  siteVisible : Bool
  siteOpacity : α
  siteInteractive : Bool
  copiedVisible : Bool
  scriptOverlayOpacity : α
  scriptOverlay : Entrance α
  widgetButtonVisible : Bool
  widgetButtonScale : α
  panelVisible : Bool
  panelOpen : Bool
  panelOpacity : α
  name : TypedField α
  email : TypedField α
  message : TypedField α
  successVisible : Bool
  successOpacity : α
  pointer : Pointer α

variable {α : Type}

def State.snapshot [Arith α] (s : State α) : Snapshot α :=
  .record "EmbedWidgetState"
    [("browser_url", .text s.browserUrl), ("deaddrop_visible", .flag s.deaddropVisible),
      ("deaddrop_opacity", .number s.deaddropOpacity),
      ("deaddrop_interactive", .flag s.deaddropInteractive), ("site_visible", .flag s.siteVisible),
      ("site_opacity", .number s.siteOpacity), ("site_interactive", .flag s.siteInteractive),
      ("copied_visible", .flag s.copiedVisible),
      ("script_overlay_opacity", .number s.scriptOverlayOpacity),
      ("script_overlay", s.scriptOverlay.snapshot),
      ("widget_button_visible", .flag s.widgetButtonVisible),
      ("widget_button_scale", .number s.widgetButtonScale), ("panel_visible", .flag s.panelVisible),
      ("panel_open", .flag s.panelOpen), ("panel_opacity", .number s.panelOpacity),
      ("name", s.name.snapshot), ("email", s.email.snapshot), ("message", s.message.snapshot),
      ("success_visible", .flag s.successVisible), ("success_opacity", .number s.successOpacity),
      ("cursor", s.pointer.snapshot)]

/-- Whether the pointer clicks on the widget or, later, on its send button. -/
def clicks [Arith α] (frame : α) : Except Fault Bool := do
  if ← Phase.during frame buttonClicked (buttonClicked + 4) then return true
  else Phase.through frame sends (sends + 3)

/-- The pointer: on its way to the copy button while that is on screen, else on its way to the
widget. -/
def pointerAt [Arith α] (frame : α) : Except Fault (Pointer α) := do
  let copying ← Phase.during frame 8 fades
  let visible ← Phase.through frame buttonAppears sends
  if copying then Pointer.onPath frame copyPath true (← Phase.during frame 16 20)
  else Pointer.onPath frame widgetPath visible (← clicks frame)

/-- A field of the form, typed without a caret. -/
def formField [Arith α] (frame : α) (text : String) (start : Int) :
    Except Fault (TypedField α) :=
  TypedField.typedAt frame (.text text) (ofInt start) (ofInt 2) (.flag false)

variable [Arith α] [Spring.Animated α]

def state (stage : Stage α) (threshold frame : α) : Except Fault (State α) := do
  let deaddropOpacity ← Phase.rampAt frame [fades, faded] [1, 0]
  let siteOpacity ← Phase.rampAt frame [siteAppears, 44] [0, 1]
  let pop ← Spring.Animated.progress stage.fps Spring.snappy (ofInt buttonAppears) frame
  let opening ← stage.smooth.progress (ofInt panelOpens) Stage.settling frame
  let pointer ← pointerAt frame
  let succeeded ← Phase.since frame succeeds
  let leaving ← Phase.before frame faded
  return {
    browserUrl :=
      if leaving then "deaddrop.io/domains/mycoolproject.com" else "mycoolproject.com"
    deaddropVisible := leaving
    deaddropOpacity
    deaddropInteractive := leaving
    siteVisible := ← Phase.since frame siteAppears
    siteOpacity
    siteInteractive :=
      ← if ← Phase.since frame faded then lt threshold siteOpacity else pure false
    copiedVisible := ← Phase.during frame 22 fades
    scriptOverlayOpacity := ← Phase.rampAt frame [48, 52, 54, 58] [0, 1, 1, 0]
    scriptOverlay := ← Entrance.slideIn stage.smooth (.known .down) (ofInt 48) Stage.settling frame
    widgetButtonVisible := ← Phase.since frame buttonAppears
    widgetButtonScale := ← rampOnward pop [ofInt 0, ofInt 1] [ofInt 0, ofInt 1]
    panelVisible := ← Phase.during frame panelOpens succeeds
    panelOpen := ← lt threshold opening
    panelOpacity := ← if succeeded then Phase.rampAt frame success [1, 0] else .ok 1.0
    name := ← formField frame "Jane Smith" 82
    email := ← formField frame "jane@example.com" 92
    message := ← formField frame "Love the project! How can I contribute?" 104
    successVisible := succeeded
    successOpacity := ← Phase.rampAt frame success [0, 1]
    pointer }

end Showreel.EmbedWidget
