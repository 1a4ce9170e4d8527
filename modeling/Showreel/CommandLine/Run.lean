import Showreel.CommandLine.Files
import Showreel.CommandLine.Options
import Showreel.Configuration
import Showreel.Director
import Showreel.Export

/-!
# Running a command line

What a command line leads to: lines on standard output, perhaps a composed frame behind them,
perhaps a written document, and an exit code. A composition that was authored wrong is reported with
exit code one, a wrong command line with exit code two; any other fault stops the program, and so
does a configuration that a director refuses.

`run` is `main` of the renderer: `configuration` is `load_config` with its `--step`, `listing` a
line of `run_list`, `showFrame` is `run_frame`, and `exportStates` is `export_states` of the
composer. `perform` keeps the place of `Director(config)` in front of the part whose
`ConfigurationError` is reported.
-/

namespace Showreel.CommandLine

/-- A document that is given out, and how it is written. -/
structure Written where
  document : Document
  text : String

structure Outcome where
  exitCode : Nat := 0
  lines : List String := []
  complaint : Option Complaint := none
  frame : Option Written := none
  written : Option (String × Written) := none

namespace Outcome

def complain (c : Complaint) : Outcome := { exitCode := 2, complaint := some c }

/-- The composition is wrong, which is reported behind the lines printed so far; other faults go
on. -/
def refuse (lines : List String) : Fault → Except Fault Outcome
  | .rejected cause =>
    .ok { exitCode := 1, lines := lines ++ ["   [Render] Invalid composition: " ++ cause.message] }
  | fault => .error fault

end Outcome

def rule : String := String.ofList (List.replicate 55 '=')

/-- The report of a composition and a line with its length in frames and seconds. -/
def listing (d : Director) (name : String) : Except Fault (List String) := do
  let plan ← Template.create (.text name) d.configuration
  let (t, report) ← d.present plan {}
  let frames ← t.duration
  let seconds ← Arith.div frames t.fps
  let time := Decimal.fixed 1 (← seconds.toDouble)
  return [report, "  " ++ Text.padRight 20 name ++ " " ++ Text.padLeft 5 (← frames.shown)
    ++ " frames  " ++ Text.padLeft 5 time ++ "s"]

/-- Lists compositions, one after the other until one is refused. -/
def listAll (d : Director) (lines : List String) : List String → Except Fault Outcome
  | [] => .ok { lines }
  | name :: rest =>
    match listing d name with
    | .ok more => listAll d (lines ++ more) rest
    | .error fault => Outcome.refuse lines fault

/-- The path that an option gives, if it gives one at all. -/
def path? : Document → Option String
  | .text path => if path.isEmpty then none else some path
  | _ => none

/-- The plan that is asked for: one from a file if there is one, else a built-in one. -/
def plan (d : Director) (o : Options) (files : Files) : Except Fault Storyboard :=
  match path? o.storyboard with
  | some path => do Storyboard.ofDocument ((← files.read path).orElse (.mapping []))
  | none => Template.create o.composition d.configuration

/-- Tells that another frame was asked for than the one shown. -/
def clampNote (t : Timeline Document) (asked shown : Document) : Except Fault String := do
  let last ← Arith.sub (← t.duration) (.int 1)
  return "   [Render] Frame " ++ (← asked.shown) ++ " outside 0.." ++ (← last.shown)
    ++ ", clamped to " ++ (← shown.shown)

def showFrame (t : Timeline Document) (report : String) (frame : Document) :
    Except Fault Outcome := do
  let composed ← t.frameAt frame
  let notes ←
    if composed.globalFrame == frame then .ok []
    else List.singleton <$> clampNote t frame composed.globalFrame
  let document := composed.snapshot.plain
  let text ← Json.render (.indented "  ") document
  return { lines := report :: notes, frame := some { document, text } }

def banner (t : Timeline Document) : Except Fault (List String) := do
  let composition := "  Composition: " ++ (← t.name.shown)
  let frames := "  Frames:      " ++ (← (← t.duration).shown) ++ " @ " ++ (← t.fps.shown) ++ "fps"
  let names ← t.segments.mapM fun s => s.name.shown
  return [rule, "  PRODUCT TOUR RENDERER", rule, composition, frames,
    "  Segments:    " ++ ", ".intercalate names, rule]

/-- Makes the directory of a path; a path without one needs none. -/
def Files.makeDirectoryOf (files : Files) (path : String) : Except Fault Unit :=
  let directory := directoryOf path
  if directory.isEmpty then .ok () else files.makeDirectory directory

/-- Exports all sampled frames to a file, whose directory is made if there is none, and reports
it. -/
def exportStates (t : Timeline Document) (path : String) (configuration : Document)
    (files : Files) : Except Fault (List String × Written) := do
  let settings ← ExportSettings.ofConfiguration configuration
  files.makeDirectoryOf path
  let samples ← Export.sample t settings
  let sampling ← samples.report
  let document ← samples.document
  files.write path
  let text ← samples.text
  return ([sampling, "   [Export] Done! Output: " ++ path], { document, text })

/-- Exports a timeline between a banner and a summary. -/
def exportTo (t : Timeline Document) (report path : String) (configuration : Document)
    (files : Files) : Except Fault Outcome := do
  let banner ← banner t
  let (lines, written) ← exportStates t path configuration files
  return {
    lines := report :: banner ++ lines
      ++ ["", rule, "  STATES READY!", rule, "  Output:   " ++ path, rule]
    written := some (path, written) }

/-- The configuration that is asked for; one whose file is not there is empty. -/
def configuration (o : Options) (files : Files) : Except Fault Document :=
  match path? o.config with
  | some path => do
    if files.isThere path then return (← files.read path).orElse (.mapping [])
    else return .mapping []
  | none => .ok Configuration.standard

/-- The screening of the composition that is asked for, and the report of it. -/
def composition (d : Director) (o : Options) (files : Files) :
    Except Fault (Screening × String) := do
  let plan ← plan d o files
  let s ← d.screening plan {}
  return (s, ← Director.report plan s.timeline)

/-- Runs options that are well formed, with the step among the settings. -/
def perform (o : Options) (configuration : Document) (files : Files) :
    Except Fault Outcome := do
  let d ← Director.build configuration
  if o.list then listAll d [] Template.names
  else
    match o.frame, path? o.output with
    | .null, none => return Outcome.complain .nothingToDo
    | frame, output =>
      match composition d o files, frame, output with
      | .error fault, _, _ => Outcome.refuse [] fault
      | .ok (s, report), .null, some path =>
        (s.ask fun s => exportTo s.timeline report path configuration files).1
      | .ok (s, report), frame, _ => (s.ask fun s => showFrame s.timeline report frame).1

/-- Runs a command line; `files` answers for the paths in it. -/
def run (arguments : List String) (files : Files) : Except Fault Outcome :=
  match Options.parse arguments with
  | .error complaint => .ok (Outcome.complain complaint)
  | .ok o =>
    if o.help then .ok {}
    else do
      let configuration ← configuration o files
      match o.step with
      | .null => perform o configuration files
      | step =>
        if ← Arith.le step (.int 0) then return Outcome.complain .stepNotPositive
        else perform o (← Configuration.withStep configuration step) files

end Showreel.CommandLine
