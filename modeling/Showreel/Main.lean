import Showreel.CommandLine.Run
import Showreel.Json.Reader

/-!
# The program

Reads the files that the command line names, runs it, and prints, writes and exits as the outcome
says.

It carries out what `main` of the renderer does, `run` having decided it.
-/

namespace Showreel

open CommandLine

/-- The document in a file. A file that holds no document is taken for an empty one. -/
def readDocument (path : String) : IO (Except Fault Document) := do
  try
    let text ← IO.FS.readFile path
    return .ok ((Json.parse? text).elim .null Configuration.settle)
  catch
    | .inappropriateType .. => return .error .isDirectory
    | _ => return .error .missingFile

/-- The documents of the files that a command line names. -/
def readDocuments (arguments : List String) : IO (List (String × Except Fault Document)) := do
  match Options.parse arguments with
  | .error _ => return []
  | .ok o =>
    let paths := [o.config, o.storyboard].filterMap path?
    paths.mapM fun path => do return (path, ← readDocument path)

/-- Answers by what was read; directories and files are made when the outcome is carried out. -/
def filesRead (documents : List (String × Except Fault Document)) : Files :=
  let found (path : String) : Except Fault Document :=
    (documents.lookup path).getD (.error .missingFile)
  { read := found
    isThere := fun path =>
      match found path with
      | .error .missingFile => false
      | _ => true
    makeDirectory := fun _ => .ok ()
    write := fun _ => .ok () }

/-- Prints and writes what an outcome holds, and returns its exit code. -/
def carryOut (o : Outcome) : IO UInt32 := do
  o.lines.forM IO.println
  if let some frame := o.frame then
    IO.println frame.text
  if let some (path, written) := o.written then
    let directory := directoryOf path
    if !directory.isEmpty then
      IO.FS.createDirAll directory
    IO.FS.writeFile path written.text
  if let some complaint := o.complaint then
    IO.eprintln (complaint.line "showreel")
  return o.exitCode.toUInt32

end Showreel

def main (arguments : List String) : IO UInt32 := do
  let documents ← Showreel.readDocuments arguments
  match Showreel.CommandLine.run arguments (Showreel.filesRead documents) with
  | .ok outcome => Showreel.carryOut outcome
  | .error fault => do
    IO.eprintln ("showreel: " ++ fault.message)
    return 1
