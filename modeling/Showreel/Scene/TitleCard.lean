import Showreel.Scene.Phase
import Showreel.Scene.Stage

/-!
# Title card

The opening of the tour, 60 frames: a logo pops in and swings around its size, title and subtitle
rise into place one after the other, then a dividing line fades in.

`State` is `TitleCardState` and `state` is `scene_state` of the `title_card` scene.
-/

namespace Showreel.TitleCard

def length : Int := 60

structure State (α : Type) [Arith α] where
  logo : Entrance α
  title : Entrance α
  subtitle : Entrance α
  divider : Entrance α
  titleText : String := "DEADDROP"
  subtitleText : String := "Anonymous Contact Widget for Any Website"
  background : String := "#f5f0e8"

variable {α : Type}

def State.snapshot [Arith α] (s : State α) : Snapshot α :=
  .record "TitleCardState"
    [("logo", s.logo.snapshot), ("title", s.title.snapshot), ("subtitle", s.subtitle.snapshot),
      ("divider", s.divider.snapshot), ("title_text", .text s.titleText),
      ("subtitle_text", .text s.subtitleText), ("background", .text s.background)]

variable [Arith α] [Spring.Animated α]

def state (stage : Stage α) (frame : α) : Except Fault (State α) := do
  let bounce := Spring.Animated.motion stage.fps Spring.bouncy
  return {
    logo := ← Entrance.scaleIn bounce (Arith.ofInt 0) frame
    title := ← Phase.fadeAt frame 8 10 .up
    subtitle := ← Phase.fadeAt frame 18 10 .up
    divider := ← Phase.fadeAt frame 25 10 .none }

end Showreel.TitleCard
