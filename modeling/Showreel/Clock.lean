import Showreel.Document.Operand

/-!
# Seconds and frames

Times are turned into whole frames by rounding to the nearest one, a half going to the even frame.

In the program's timing helpers these are `DEFAULT_FPS`, `sec` and `ms`.
-/

namespace Showreel.Clock

/-- Frames per second unless a composition says otherwise. -/
def defaultFps : Document := .int 30

def seconds (time fps : Document) : Except Fault Int :=
  time.roundProduct fps

def milliseconds (time fps : Document) : Except Fault Int := do
  (← Arith.div time (.int 1000)).roundProduct fps

end Showreel.Clock
