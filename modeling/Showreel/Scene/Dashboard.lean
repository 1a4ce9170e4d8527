import Showreel.Scene.CrossFade
import Showreel.Scene.Phase
import Showreel.Scene.Pointer
import Showreel.Scene.Stage

/-!
# Dashboard and inbox

150 frames: the list of domains with a badge that counts unread messages and bumps once, a click on
a row, the page of that domain with its messages fading in, and the first message marked as read.

`State` is `DashboardState` and `state` is `scene_state` of the `dashboard` scene; the paths are its
`ROW_PATH` and `MARK_PATH`.
-/

namespace Showreel.Dashboard

open Arith

def length : Int := 150

def pointerAppears : Int := 30

def rowHovered : Int := 35

def fades : Int := 55

def faded : Int := 62

def markAppears : Int := 90

/-- The pointer's way to the row. -/
def rowPath : List (String × Int × Int × Int) :=
  [("enter", pointerAppears, 700, 250), ("row", rowHovered, 500, 290), ("click", 45, 500, 290)]

/-- The pointer's way to the mark on the first message. -/
def markPath : List (String × Int × Int × Int) :=
  [("enter", markAppears, 600, 250), ("mark_read", 96, 330, 390), ("click", 100, 330, 390)]

structure State (α : Type) [Arith α] where
  browserUrl : String
  dashboardOpacity : α
  dashboardEntrance : Entrance α
  dashboardInteractive : Bool
  unreadCount : Int
  badgeScale : α
  rowHovered : Bool
  detailOpacity : α
  detailInteractive : Bool
  messages : List (Entrance α)
  firstMessageRead : Bool
  unreadMarkerOpacity : α
  pointer : Pointer α

variable {α : Type}

def State.snapshot [Arith α] (s : State α) : Snapshot α :=
  .record "DashboardState"
    [("browser_url", .text s.browserUrl), ("dashboard_opacity", .number s.dashboardOpacity),
      ("dashboard_entrance", s.dashboardEntrance.snapshot),
      ("dashboard_interactive", .flag s.dashboardInteractive),
      ("unread_count", .count s.unreadCount), ("badge_scale", .number s.badgeScale),
      ("row_hovered", .flag s.rowHovered), ("detail_opacity", .number s.detailOpacity),
      ("detail_interactive", .flag s.detailInteractive),
      ("messages", .tuple (s.messages.map Entrance.snapshot)),
      ("first_message_read", .flag s.firstMessageRead),
      ("unread_marker_opacity", .number s.unreadMarkerOpacity), ("cursor", s.pointer.snapshot)]

/-- The pointer: on its way to the row while the dashboard stands, else on its way to the
message. -/
def pointerAt [Arith α] (frame : α) : Except Fault (Pointer α) := do
  if ← Phase.during frame pointerAppears fades then
    Pointer.onPath frame rowPath true (← Phase.during frame 45 49)
  else
    Pointer.onPath frame markPath (← Phase.through frame markAppears 104)
      (← Phase.during frame 100 104)

variable [Arith α] [Spring.Animated α]

def state (stage : Stage α) (threshold frame : α) : Except Fault (State α) := do
  let bump ← Spring.Animated.progress stage.fps Spring.snappy (ofInt 12) frame
  let detailOpacity ← Phase.rampAt frame [63, 70] [0, 1]
  let pointer ← pointerAt frame
  let standing ← Phase.before frame faded
  return {
    browserUrl := if standing then "deaddrop.io" else "deaddrop.io/domains/mycoolproject.com"
    dashboardOpacity := ← Phase.rampAt frame [fades, faded] [1, 0]
    dashboardEntrance := ← Phase.fadeAt frame 0 12 .up
    dashboardInteractive := standing
    unreadCount := if ← Phase.before frame 15 then 2 else 3
    badgeScale := ← rampThrough bump [ofInt 0, 0.5, ofInt 1] [ofInt 1, 1.15, ofInt 1]
    rowHovered := ← Phase.during frame rowHovered fades
    detailOpacity
    detailInteractive :=
      ← if ← Phase.since frame faded then lt threshold detailOpacity else pure false
    messages := ← [65, 70, 75].mapM fun start => Phase.fadeAt frame start 8 .up
    firstMessageRead := ← Phase.since frame 125
    unreadMarkerOpacity := ← Phase.rampAt frame [115, 125] [1, 0]
    pointer }

end Showreel.Dashboard
