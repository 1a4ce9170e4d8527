import Showreel.Scene.Registry
import Showreel.Storyboard

/-!
# Templates

Built-in storyboards: the full tour of all six scenes, and every scene on its own under its own
name. What the configuration says about picture and transitions goes into them.

These are the brain's templates: `tour` is `full_tour`, `single` is `single_scene`, `names` is
`list_compositions`, `create` is `get_storyboard`, and `canvas` is the empty storyboard with
`_video_settings` in it.
-/

namespace Showreel.Template

def fullTour : String := "full_tour"

def names : List String := fullTour :: Scene.all.map Scene.name

/-- An empty plan with the picture settings of a configuration. -/
def canvas (configuration : Document) (compositionId title : String) : Except Fault Storyboard := do
  let video ← configuration.setting "video" (.mapping [])
  return {
    compositionId := .text compositionId
    title := .text title
    fps := ← video.setting "fps" (.int 30)
    width := ← video.setting "width" (.int 1920)
    height := ← video.setting "height" (.int 1080) }

/-- An entry of the tour, with the transition settings of a configuration. -/
def tourEntry (settings : Document) (scene : Scene) : Except Fault SceneEntry := do
  return {
    sceneId := .text scene.name
    transitionIn :=
      ← Presentation.ofSetting (← settings.setting "transition" (.text "crossfade"))
    transitionDuration := ← settings.setting "transition_duration" (.int 15)
    timing := ← Timing.ofSetting (← settings.setting "timing" (.text "linear"))
    easing := ← settings.setting "easing" (.text "linear")
    spring := ← settings.setting "spring" (.text "smooth") }

/-- All six scenes, joined by the transitions that the configuration asks for. -/
def tour (configuration : Document) : Except Fault Storyboard := do
  let settings ← configuration.setting "timeline" (.mapping [])
  let plan ← canvas configuration fullTour "DeadDrop product tour"
  return (← Scene.all.mapM (tourEntry settings)).foldl Storyboard.addScene plan

def capitalize (word : List Char) : List Char :=
  match word with
  | c :: rest => c.toUpper :: rest
  | [] => []

def title (name : String) : String :=
  String.ofList (" ".toList.intercalate ((name.toList.splitOn '_').map capitalize))

/-- One scene on its own. -/
def single (scene : Scene) (configuration : Document) : Except Fault Storyboard := do
  let plan ← canvas configuration scene.name (title scene.name)
  return plan.addScene { sceneId := .text scene.name, duration := .int scene.length }

/-- The built-in storyboard that a setting names. -/
def create (label configuration : Document) : Except Fault Storyboard := do
  if label.equal (.text fullTour) then tour configuration
  else
    match ← label.find? Scene.ofName? with
    | some scene => single scene configuration
    | none => reject (.unknownComposition (← label.shown) names)

end Showreel.Template
