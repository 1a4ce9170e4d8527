import Showreel.Json.Writer
import Showreel.Sampling

/-!
# Export

The frames of a timeline, every so many of them, written as one JSON document together with the
settings that whoever draws them needs.

`sample` and `document` are the two halves of the composer's `export_states`, in front of and behind
the line that it prints (`report`); `text` is what it writes.
-/

namespace Showreel

/-- What a configuration says about an export. -/
structure ExportSettings where
  video : Document
  step : Document
  indent : Document

def ExportSettings.ofConfiguration (configuration : Document) : Except Fault ExportSettings := do
  let video ← configuration.setting "video" (.mapping [])
  let settings ← configuration.setting "export" (.mapping [])
  return {
    video
    step := ← settings.setting "step" (.int 1)
    indent := ← settings.setting "indent" (.int 2) }

/-- Sampled frames on their way into a document. -/
structure Export where
  timeline : Timeline Document
  settings : ExportSettings
  frames : List (ComposedFrame Document)

namespace Export

/-- Samples a timeline as the settings ask for. -/
def sample (t : Timeline Document) (settings : ExportSettings) : Except Fault Export := do
  let stop ← t.duration
  let frames ← t.sampleFrames (.int 0) (some stop) settings.step
  return { timeline := t, settings, frames }

def report (e : Export) : Except Fault String := do
  return "   [Export] Sampling " ++ toString e.frames.length ++ " frame(s) of '"
    ++ (← e.timeline.name.shown) ++ "'..."

def document (e : Export) : Except Fault Document := do
  let width ← e.settings.video.setting "width" (.int 1920)
  let height ← e.settings.video.setting "height" (.int 1080)
  let duration ← e.timeline.duration
  return .mapping
    [("composition", e.timeline.name), ("fps", e.timeline.fps), ("width", width),
      ("height", height), ("duration_in_frames", duration), ("step", e.settings.step),
      ("frames", .list (e.frames.map fun frame => frame.snapshot.plain))]

/-- The text of the document in the layout that the settings ask for. -/
def text (e : Export) : Except Fault String := do
  let document ← e.document
  Json.render (← Json.Layout.ofSetting e.settings.indent) document

end Export

end Showreel
