import Showreel.Spring.Motion

/-!
# Stages

A stage is a rate of frames at which scenes are shown. What enters late in a scene is carried by a
smooth spring that is made to settle in a fixed number of frames; its own frames are measured at
most once on a stage, however many scenes and frames are shown there.

A stage stands for the `fps` that every `scene_state` takes, and `settleFrames` is
`SMOOTH_SETTLE_FRAMES` of the scene state.
-/

namespace Showreel

/-- A rate of frames, with the motion of a smooth spring at it. -/
structure Stage (α : Type) where
  fps : α
  smooth : Spring.Motion α

namespace Stage

/-- The frames in which a smooth spring is made to settle. -/
def settleFrames : Int := 23

variable {α : Type} [Arith α] [Spring.Animated α]

def ofRate (fps : α) : Stage α := { fps, smooth := Spring.Animated.motion fps Spring.smooth }

/-- The length in which a smooth spring is made to settle. -/
def settling : Option α := some (Arith.ofInt settleFrames)

end Stage

end Showreel
