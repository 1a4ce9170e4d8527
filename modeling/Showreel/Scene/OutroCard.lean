import Showreel.Scene.Phase

/-!
# Outro card

The end of the tour, 60 frames: logo and tagline appear together, then the address, then the footer.

`State` is `OutroCardState` and `state` is `scene_state` of the `outro_card` scene.
-/

namespace Showreel.OutroCard

def length : Int := 60

structure State (α : Type) [Arith α] where
  logo : Entrance α
  tagline : Entrance α
  url : Entrance α
  footer : Entrance α
  taglineText : String := "Your website. Their messages. Your inbox."
  urlText : String := "deaddrop.io"
  footerText : String := "Open Source · Self-Hosted · Privacy-First"
  background : String := "#0a0a0a"

variable {α : Type} [Arith α]

def State.snapshot (s : State α) : Snapshot α :=
  .record "OutroCardState"
    [("logo", s.logo.snapshot), ("tagline", s.tagline.snapshot), ("url", s.url.snapshot),
      ("footer", s.footer.snapshot), ("tagline_text", .text s.taglineText),
      ("url_text", .text s.urlText), ("footer_text", .text s.footerText),
      ("background", .text s.background)]

def state (frame : α) : Except Fault (State α) := do
  return {
    logo := ← Phase.fadeAt frame 0 12 .none
    tagline := ← Phase.fadeAt frame 0 12 .up
    url := ← Phase.fadeAt frame 15 10 .up
    footer := ← Phase.fadeAt frame 25 10 .none }

end Showreel.OutroCard
