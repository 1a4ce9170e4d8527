import Showreel.Template
import Showreel.Text.Integer

/-!
# Command line options

Options are written `--name value` or `--name=value`, and a name may be cut short as long as it
stays unambiguous. A negative number or a text with a blank in it is never taken for an option. All
arguments are sorted into options and values before the first option is looked at, so an ambiguous
name is the first thing to be complained of. Two dashes attached to an option, `--name=--`, leave it
with an empty list for its value.

These are the options that `main` of the renderer declares, read as the argument parser it uses
(`ArgumentParser`) documents.
-/

namespace Showreel.CommandLine

inductive Flag where
  | help
  | composition
  | storyboard
  | frame
  | output
  | step
  | config
  | list
  deriving DecidableEq, Repr

namespace Flag

def spellings : List (String × Flag) :=
  [("-h", help), ("--help", help), ("--composition", composition), ("--storyboard", storyboard),
    ("--frame", frame), ("--output", output), ("--step", step), ("--config", config),
    ("--list", list)]

def takesValue : Flag → Bool
  | help | list => false
  | _ => true

def label (flag : Flag) (spelling : String) : String :=
  if flag = help then "-h/--help" else spelling

end Flag

inductive Complaint where
  | ambiguous (argument : String) (candidates : List String)
  | missingValue (option : String)
  | notInteger (option value : String)
  | needlessValue (option value : String)
  | unrecognized (arguments : List String)
  | stepNotPositive
  | nothingToDo
  deriving DecidableEq, Repr

def Complaint.message : Complaint → String
  | ambiguous argument candidates =>
    "ambiguous option: " ++ argument ++ " could match " ++ ", ".intercalate candidates
  | missingValue option => "argument " ++ option ++ ": expected one argument"
  | notInteger option value => "argument " ++ option ++ ": invalid int value: " ++ Text.quote value
  | needlessValue option value =>
    "argument " ++ option ++ ": ignored explicit argument " ++ Text.quote value
  | unrecognized arguments => "unrecognized arguments: " ++ " ".intercalate arguments
  | stepNotPositive => "--step must be a positive number"
  | nothingToDo => "nothing to do: pass --frame, --output or --list"

def Complaint.line (program : String) (c : Complaint) : String :=
  program ++ ": error: " ++ c.message

inductive Token where
  | value (text : String)
  | endOfOptions
  | option (flag : Flag) (spelling : String) (attached : Option String)
  | unknownOption (text : String)

def allDigits (cs : List Char) : Bool := cs.all fun c => (Text.decimalValue? c).isSome

/-- Text without the line break at its end, if there is one. -/
def withoutLineBreak (cs : List Char) : List Char :=
  if cs.getLast? = some '\n' then cs.dropLast else cs

/-- Whether a text is a negative number: digits behind a minus sign, perhaps with a point among
them. A line break may end it. -/
def isNegativeNumber (s : String) : Bool :=
  match withoutLineBreak s.toList with
  | '-' :: rest =>
    let fraction := rest.dropWhile (· ≠ '.')
    match fraction with
    | [] => !rest.isEmpty && allDigits rest
    | _ :: places => allDigits (rest.takeWhile (· ≠ '.')) && !places.isEmpty && allDigits places
  | _ => false

/-- An argument at its first equals sign. -/
def splitAtEquals (s : String) : String × Option String :=
  let cs := s.toList
  let name := String.ofList (cs.takeWhile (· ≠ '='))
  match cs.dropWhile (· ≠ '=') with
  | [] => (name, none)
  | _ :: rest => (name, some (String.ofList rest))

/-- The spellings that begin like an argument, with what is attached to them; two dashes begin a
name that may be cut short, and to an option of one letter whatever follows is attached. -/
def candidates (s : String) : List (String × Flag × Option String) :=
  if s.startsWith "--" then
    let (name, attached) := splitAtEquals s
    Flag.spellings.filterMap fun (spelling, flag) =>
      if spelling.startsWith name then some (spelling, flag, attached) else none
  else
    let short := (s.take 2).toString
    let rest := (s.drop 2).toString
    Flag.spellings.filterMap fun (spelling, flag) =>
      if spelling = short then some (spelling, flag, some rest)
      else if spelling.startsWith s then some (spelling, flag, none)
      else none

def classify (s : String) : Except Complaint Token :=
  if !s.startsWith "-" then .ok (.value s)
  else
    match Flag.spellings.lookup s, splitAtEquals s with
    | some flag, _ => .ok (.option flag s none)
    | none, (name, attached) =>
      if s.length = 1 then .ok (.value s)
      else
        match attached, Flag.spellings.lookup name with
        | some value, some flag => .ok (.option flag name (some value))
        | _, _ =>
          match candidates s with
          | [(spelling, flag, attached)] => .ok (.option flag spelling attached)
          | [] =>
            if isNegativeNumber s || s.toList.contains ' ' then .ok (.value s)
            else .ok (.unknownOption s)
          | several => .error (.ambiguous s (several.map Prod.fst))

/-- Tells what each argument is; behind two dashes all are values. -/
def tokens : List String → Except Complaint (List Token)
  | [] => .ok []
  | "--" :: rest => .ok (.endOfOptions :: rest.map .value)
  | s :: rest => do
    let token ← classify s
    return token :: (← tokens rest)

/-- What a command line asks for. What it does not mention is absent. -/
structure Options where
  composition : Document := .text Template.fullTour
  storyboard : Document := .null
  frame : Document := .null
  output : Document := .null
  step : Document := .null
  config : Document := .null
  list : Bool := false
  help : Bool := false

namespace Options

/-- The value that an option is given. -/
def given (value : String) : Document := if value = "--" then .list [] else .text value

def integer (spelling value : String) : Except Complaint Document :=
  if value = "--" then .ok (.list [])
  else
    match Text.decimal? value.toList with
    | some n => .ok (.int n)
    | none => .error (.notInteger spelling value)

def give (o : Options) (flag : Flag) (spelling value : String) : Except Complaint Options :=
  match flag with
  | .composition => .ok { o with composition := given value }
  | .storyboard => .ok { o with storyboard := given value }
  | .frame => do return { o with frame := ← integer spelling value }
  | .output => .ok { o with output := given value }
  | .step => do return { o with step := ← integer spelling value }
  | .config => .ok { o with config := given value }
  | .help | .list => .ok o

/-- What is attached to an option that takes no value and is not to be there: letters attached to
`-h` may ask for help again. -/
def needless? (spelling value : String) : Option String :=
  if spelling = "-h" ∧ value ≠ "" then
    match value.toList.dropWhile (· = 'h') with
    | [] => none
    | rest => some (String.ofList rest)
  else some value

/-- Reads options from what the arguments are; `extras` holds what belongs to no option, last first.
A call for help ends the reading. -/
def collect (o : Options) (extras : List String) : List Token → Except Complaint Options
  | [] => if extras.isEmpty then .ok o else .error (.unrecognized extras.reverse)
  | .value s :: rest => collect o (s :: extras) rest
  | .endOfOptions :: rest => collect o ("--" :: extras) rest
  | .unknownOption s :: rest => collect o (s :: extras) rest
  | .option flag spelling (some value) :: rest =>
    if flag.takesValue then do collect (← o.give flag spelling value) extras rest
    else
      match needless? spelling value with
      | some value => .error (.needlessValue (flag.label spelling) value)
      | none => .ok { o with help := true }
  | .option flag spelling none :: rest =>
    if flag.takesValue then
      match rest with
      | .value s :: rest => do collect (← o.give flag spelling s) extras rest
      | _ => .error (.missingValue spelling)
    else if flag = .help then .ok { o with help := true }
    else collect { o with list := true } extras rest

def parse (arguments : List String) : Except Complaint Options := do
  collect {} [] (← tokens arguments)

end Options

end Showreel.CommandLine
