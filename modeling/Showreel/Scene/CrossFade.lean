import Showreel.Curve
import Showreel.Snapshot

/-!
# Cross-fades

Two views trade places over a window of frames: one fades out while the other fades in. At most one
of them takes pointer input, the more opaque one, and only once its opacity is above a threshold; at
an exact tie the outgoing view keeps it.

This is `CrossFade` of the scene state; `swapAt` is `cross_fade` and `defaultThreshold` is
`INTERACTIVE_OPACITY_THRESHOLD`.
-/

namespace Showreel

/-- Opacities and input of two views that trade places. -/
structure CrossFade (α : Type) [Arith α] where
  outgoingOpacity : α
  incomingOpacity : α
  outgoingInteractive : Bool
  incomingInteractive : Bool

namespace CrossFade

variable {α : Type} [Arith α]

open Arith

def snapshot (c : CrossFade α) : Snapshot α :=
  .record "CrossFade"
    [("outgoing_opacity", .number c.outgoingOpacity),
      ("incoming_opacity", .number c.incomingOpacity),
      ("outgoing_interactive", .flag c.outgoingInteractive),
      ("incoming_interactive", .flag c.incomingInteractive)]

/-- The opacity above which a view takes input unless told otherwise. -/
def defaultThreshold : α := 0.1

/-- The two views at a frame of a window. The threshold is looked at only for the more opaque
view. -/
def swapAt (frame start stop threshold : α) : Except Fault (CrossFade α) := do
  let outgoing ← ramp frame [start, stop] [ofInt 1, ofInt 0]
  let incoming ← ramp frame [start, stop] [ofInt 0, ofInt 1]
  return {
    outgoingOpacity := outgoing
    incomingOpacity := incoming
    outgoingInteractive :=
      ← if ← le incoming outgoing then lt threshold outgoing else pure false
    incomingInteractive :=
      ← if ← lt outgoing incoming then lt threshold incoming else pure false }

end CrossFade

end Showreel
