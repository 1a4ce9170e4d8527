import Showreel.Template
import Showreel.Timeline.Frame
import Showreel.Timeline.Screening

/-!
# Directing

A director knows a configuration: its springs and the opacity from which views take input. It turns
a storyboard into a timeline, looking up every scene, easing and spring that the plan names. The
plan is checked entry by entry, the way into an entry before the entry itself; the way into the
first entry is never looked at.

This is `Director` of the brain: `timeline` is `build_timeline`, `transition` its `_transition`,
`easing` is `get_easing`, and `report` the line that `build_timeline` prints.
-/

namespace Showreel

/-- What is needed to turn storyboards into timelines. -/
structure Director where
  configuration : Document
  springs : Spring.Presets
  /-- The opacity above which a view takes input, as it was given. -/
  threshold : Document

namespace Director

/-- A director for a configuration; one that says nothing is taken for an empty one. -/
def build (configuration : Document) : Except Fault Director := do
  let configuration := configuration.orElse (.mapping [])
  let springs ← Spring.Presets.load configuration
  let interaction ← configuration.setting "interaction" (.mapping [])
  let threshold ← interaction.setting "opacity_threshold" CrossFade.defaultThreshold
  return { configuration, springs, threshold }

def easing (label : Document) : Except Fault Easing := do
  match ← label.find? Easing.ofName? with
  | some e => return e
  | none => reject (.unknownEasing (← label.shown) Easing.names)

def spring (d : Director) (label : Document) : Except Fault (Spring.Config Document) := do
  match ← label.find? d.springs.find? with
  | some config => return config
  | none => reject (.unknownPreset (← label.shown) d.springs.names)

/-- The way into an entry. Its easing must be known even if a spring drives the transition. -/
def transition (d : Director) (entry : SceneEntry) : Except Fault (Transition Document) := do
  let easing ← easing entry.easing
  let presentation := .known entry.transitionIn
  match entry.timing with
  | .linear => Transition.eased entry.transitionDuration presentation easing.apply
  | .spring =>
    let config ← d.spring entry.spring
    Transition.sprung entry.transitionDuration config presentation

/-- The length that an entry asks for, or the scene's own. -/
def lengthOf (entry : SceneEntry) (scene : Scene) : Document :=
  match entry.duration with
  | .null => .int scene.length
  | duration => duration

def segment (d : Director) (stage : Stage Document) (entry : SceneEntry) (scene : Scene) :
    Except Fault (Segment Document) :=
  Segment.build (lengthOf entry scene) (scene.state stage d.threshold) entry.sceneId

def opening (d : Director) (stage : Stage Document) (entry : SceneEntry) :
    Except Fault (List (Item Document)) := do
  let scene ← Scene.find entry.sceneId
  return [.segment (← d.segment stage entry scene)]

/-- A further entry of a plan, behind the way into it. -/
def continuation (d : Director) (stage : Stage Document) (entry : SceneEntry) :
    Except Fault (List (Item Document)) := do
  let scene ← Scene.find entry.sceneId
  let way ← d.transition entry
  return [.transition way, .segment (← d.segment stage entry scene)]

/-- Remembers the motions of all springs of the director at a rate of frames. -/
def learn (d : Director) (memory : Spring.Memory) (fps : Document) : Spring.Memory :=
  d.springs.foldl (fun memory spring => memory.learn fps spring.2) memory

/-- The timeline of a plan, whose springs move by a memory. -/
def timeline (d : Director) (plan : Storyboard) (memory : Spring.Memory) :
    Except Fault (Timeline Document) := do
  match plan.scenes with
  | [] => reject (.emptyStoryboard (← plan.compositionId.shown))
  | first :: others =>
    let stage := Stage.ofRate plan.fps
    let items ← d.opening stage first
    let further ← others.mapM (d.continuation stage)
    let _ := memory.animated
    Timeline.build (items ++ further.flatten) plan.fps plan.compositionId

/-- The screening of a plan, beginning with what is remembered of springs. -/
def screening (d : Director) (plan : Storyboard) (memory : Spring.Memory) :
    Except Fault Screening :=
  Screening.start (d.timeline plan) (d.learn memory plan.fps)

def report (plan : Storyboard) (t : Timeline Document) : Except Fault String := do
  return "   [Director] " ++ (← plan.compositionId.shown) ++ ": " ++ toString plan.scenes.length
    ++ " scene(s), " ++ (← (← t.duration).shown) ++ " frames @ " ++ (← plan.fps.shown) ++ "fps"

/-- The timeline of a plan, whose springs move by a memory, and the report of it. -/
def present (d : Director) (plan : Storyboard) (memory : Spring.Memory) :
    Except Fault (Timeline Document × String) := do
  let t ← d.timeline plan memory
  return (t, ← report plan t)

end Director

end Showreel
