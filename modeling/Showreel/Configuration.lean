import Showreel.Json.Writer

/-!
# Configuration

The configuration that holds unless another one is given, and what happens to documents on their way
in from a file.

`standard` is the configuration that ships with the renderer, `settle` the reader's rule for numbers
without a point, and `withStep` what `main` does with `--step`.
-/

namespace Showreel.Configuration

def spring (mass damping stiffness : Int) : Document :=
  .mapping
    [("mass", .int mass), ("damping", .int damping), ("stiffness", .int stiffness),
      ("overshoot_clamping", .flag false)]

def standard : Document :=
  .mapping
    [("video", .mapping [("width", .int 1920), ("height", .int 1080), ("fps", .int 30)]),
      ("timeline", .mapping
        [("transition", .text "crossfade"), ("transition_duration", .int 15),
          ("timing", .text "linear"), ("easing", .text "linear"), ("spring", .text "smooth")]),
      ("interaction", .mapping [("opacity_threshold", .double 0.1)]),
      ("springs", .mapping
        [("smooth", spring 1 200 100), ("snappy", spring 1 20 200), ("bouncy", spring 1 8 100),
          ("heavy", spring 2 15 80)]),
      ("export", .mapping [("step", .int 1), ("indent", .int 2)])]

mutual

/-- A document as it comes in from a file, where only what has a point is a double: one whose
shortest text has none is that text. -/
def settle : Document → Document
  | .double x =>
    let written := Json.double x
    if written.toList.contains '.' then .double x else .text written
  | .list items => .list (settleItems items)
  | .mapping entries => .mapping (settleEntries entries)
  | v => v

def settleItems : List Document → List Document
  | [] => []
  | v :: rest => settle v :: settleItems rest

def settleEntries : List (String × Document) → List (String × Document)
  | [] => []
  | (k, v) :: rest => (k, settle v) :: settleEntries rest

end

def withStep (configuration step : Document) : Except Fault Document := do
  let entries ← configuration.entries
  let settings := (Document.lookup "export" entries).getD (.mapping [])
  match settings with
  | .mapping es =>
    let settings := .mapping (Document.put "step" step es)
    return .mapping (Document.put "export" settings entries)
  | _ => .error .wrongType

end Showreel.Configuration
