import Showreel.Document.Operand

/-!
# Writing documents as JSON

A document is written on one line, or with every item on a line of its own, indented by its depth.
Text is written in ASCII; characters beyond it are escaped by their UTF-16 units. Doubles have the
fewest digits that read back. Empty lists and mappings stay on their line.

This is what `json.dump` and `json.dumps` write for `export_states` and `run_frame`; `Layout` is
their `indent`.
-/

namespace Showreel.Json

/-- One UTF-16 unit, escaped. -/
def unitEscape (n : Nat) : String :=
  "\\u" ++ String.ofList (Text.hexDigits 4 n)

def escape (c : Char) : String :=
  let n := c.toNat
  if c = '"' then "\\\""
  else if c = '\\' then "\\\\"
  else if c = '\n' then "\\n"
  else if c = '\r' then "\\r"
  else if c = '\t' then "\\t"
  else if n = 8 then "\\b"
  else if n = 12 then "\\f"
  else if 32 ≤ n ∧ n < 127 then c.toString
  else if n < 65536 then unitEscape n
  else unitEscape (55296 + (n - 65536) / 1024) ++ unitEscape (56320 + (n - 65536) % 1024)

def text (s : String) : String :=
  s.foldl (fun out c => out ++ escape c) "\"" ++ "\""

/-- A double; the ones that are not finite have names. -/
def double (x : Float) : String :=
  if x.isNaN then "NaN"
  else if x.isInf then if x < 0.0 then "-Infinity" else "Infinity"
  else Decimal.shortest x

/-- How items are laid out: all on one line, or each on its own line behind one unit of indentation
for every level. -/
inductive Layout where
  | oneLine
  | indented (unit : String)
  deriving DecidableEq, Repr

namespace Layout

/-- The layout that a setting asks for: a number of blanks, the text of one level, or none at
all. -/
def ofSetting : Document → Except Fault Layout
  | .null => .ok .oneLine
  | .text s => .ok (.indented s)
  | v => do
    let n ← Document.textRepetition 1 (← v.index)
    return .indented (String.ofList (List.replicate n ' '))

def lineBreak : Layout → Nat → String
  | oneLine, _ => ""
  | indented unit, level => "\n" ++ String.join (List.replicate level unit)

def separator (layout : Layout) (level : Nat) : String :=
  match layout with
  | oneLine => ", "
  | layout => "," ++ layout.lineBreak level

end Layout

mutual

/-- Appends a document at a level. -/
def write (layout : Layout) (level : Nat) (out : String) : Document → String
  | .null => out ++ "null"
  | .flag b => out ++ (if b then "true" else "false")
  | .int n => out ++ toString n
  | .double x => out ++ double x
  | .text s => out ++ text s
  | .list [] => out ++ "[]"
  | .list (v :: rest) =>
    let first := write layout (level + 1) (out ++ "[" ++ layout.lineBreak (level + 1)) v
    writeItems layout (level + 1) first rest ++ layout.lineBreak level ++ "]"
  | .mapping [] => out ++ "\x7b\x7d"
  | .mapping ((k, v) :: rest) =>
    let opened := out ++ "\x7b" ++ layout.lineBreak (level + 1) ++ text k ++ ": "
    let first := write layout (level + 1) opened v
    writeEntries layout (level + 1) first rest ++ layout.lineBreak level ++ "\x7d"

def writeItems (layout : Layout) (level : Nat) (out : String) : List Document → String
  | [] => out
  | v :: rest =>
    writeItems layout level (write layout level (out ++ layout.separator level) v) rest

def writeEntries (layout : Layout) (level : Nat) (out : String) :
    List (String × Document) → String
  | [] => out
  | (k, v) :: rest =>
    let opened := out ++ layout.separator level ++ text k ++ ": "
    writeEntries layout level (write layout level opened v) rest

end

/-- The text of a document, whose integers must not have too many digits. -/
def render (layout : Layout) (document : Document) : Except Fault String :=
  if Text.unwritable ≤ document.magnitude then .error .badValue
  else .ok (write layout 0 "" document)

end Showreel.Json
