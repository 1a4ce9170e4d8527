import Showreel.Number
import Showreel.Text.Integer

/-!
# Documents

Configurations, storyboards and requests are documents: trees of absent values, truth values,
numbers, text, lists and mappings whose entries keep their order. A setting is read from a document
under its key, with a default when the key is missing; what kind of value stands there is checked
only when the value is used.

These are the built-in values a configuration or storyboard is read into. `setting` is `get` of a
mapping, `isTrue` is truth, `shown` and `quoted` are `str` and `repr`, `equal` is `==`, and `isKey`
tells what can be hashed. `Choice` is what a lookup by name made of a value.
-/

namespace Showreel

inductive Document where
  | null
  | flag (b : Bool)
  | int (n : Int)
  | double (x : Float)
  | text (s : String)
  | list (items : List Document)
  /-- A mapping. Its keys are text, under which all settings are sought; mappings with a number, a
  truth value or nothing for a key are left out. -/
  | mapping (entries : List (String × Document))
  deriving Inhabited

def Number.document : Number → Document
  | .int n => .int n
  | .double x => .double x

namespace Document

def kind : Document → String
  | .null => "NoneType"
  | .flag _ => "bool"
  | .int _ => "int"
  | .double _ => "float"
  | .text _ => "str"
  | .list _ => "list"
  | .mapping _ => "dict"

/-! ## Settings -/

/-- The first entry under a key. -/
def lookup {β : Type} (key : String) : List (String × β) → Option β
  | [] => none
  | (k, v) :: rest => if k = key then some v else lookup key rest

/-- Puts a value under a key: in place when the key is there, else at the end. -/
def put {β : Type} (key : String) (value : β) : List (String × β) → List (String × β)
  | [] => [(key, value)]
  | (k, v) :: rest => if k = key then (k, value) :: rest else (k, v) :: put key value rest

def entries : Document → Except Fault (List (String × Document))
  | .mapping es => .ok es
  | _ => .error .notMapping

/-- The setting under a key of a mapping, or a default when the key is missing. -/
def setting (document : Document) (key : String) (default : Document) : Except Fault Document := do
  return (lookup key (← document.entries)).getD default

/-! ## Values as sequences -/

def ofChar (c : Char) : Document := .text c.toString

/-- What a value consists of: the items of a list, the characters of a text or the keys of a
mapping. -/
def items : Document → Except Fault (List Document)
  | .list vs => .ok vs
  | .text s => .ok (s.toList.map ofChar)
  | .mapping es => .ok (es.map fun e => .text e.1)
  | _ => .error .wrongType

/-- How many parts a value consists of. Characters are code points. -/
def size (v : Document) : Except Fault Nat := do return (← v.items).length

def part (v : Document) (i : Nat) : Except Fault Document :=
  match v with
  | .list vs => entryAt vs i
  | .text s => ofChar <$> entryAt s.toList i
  | .mapping _ => .error (.unknownName none)
  | _ => .error .wrongType

/-- The first parts of a list or a text. -/
def front (n : Nat) : Document → Except Fault Document
  | .text s => .ok (.text (String.ofList (s.toList.take n)))
  | .list vs => .ok (.list (vs.take n))
  | _ => .error .wrongType

/-! ## Values in messages -/

/-- The digits of an integer, unless it has too many. -/
def integerText (n : Int) : Except Fault String :=
  match Text.ofInteger? n with
  | some s => .ok s
  | none => .error .badValue

mutual

/-- A value as it appears inside a list or mapping: text is quoted. -/
def quoted : Document → Except Fault String
  | .null => .ok "None"
  | .flag b => .ok (if b then "True" else "False")
  | .int n => integerText n
  | .double x => .ok (Decimal.shortest x)
  | .text s => .ok (Text.quote s)
  | .list items => do return "[" ++ ", ".intercalate (← quotedItems items) ++ "]"
  | .mapping es => do return "\x7b" ++ ", ".intercalate (← quotedEntries es) ++ "\x7d"

def quotedItems : List Document → Except Fault (List String)
  | [] => .ok []
  | v :: rest => do
    let item ← v.quoted
    return item :: (← quotedItems rest)

def quotedEntries : List (String × Document) → Except Fault (List String)
  | [] => .ok []
  | (k, v) :: rest => do
    let value ← v.quoted
    return (Text.quote k ++ ": " ++ value) :: (← quotedEntries rest)

end

/-- A value as it appears in a message of its own: text as it is. -/
def shown : Document → Except Fault String
  | .text s => .ok s
  | v => v.quoted

mutual

/-- The greatest magnitude of an integer in a value. -/
def magnitude : Document → Nat
  | .int n => n.natAbs
  | .list items => magnitudeOfItems items
  | .mapping es => magnitudeOfEntries es
  | _ => 0

def magnitudeOfItems : List Document → Nat
  | [] => 0
  | v :: rest => max v.magnitude (magnitudeOfItems rest)

def magnitudeOfEntries : List (String × Document) → Nat
  | [] => 0
  | (_, v) :: rest => max v.magnitude (magnitudeOfEntries rest)

end

/-! ## Truth and equality -/

/-- Whether a value counts as given: zero, empty and absent ones do not. -/
def isTrue : Document → Bool
  | .null => false
  | .flag b => b
  | .int n => n ≠ 0
  | .double x => !(x == 0.0)
  | .text s => !s.isEmpty
  | .list items => !items.isEmpty
  | .mapping es => !es.isEmpty

/-- The value, or another one if it does not count as given. -/
def orElse (v other : Document) : Document := if v.isTrue then v else other

/-- The number that a value stands for; truth values count as one and zero. -/
def number? : Document → Option Number
  | .flag b => some (.int (if b then 1 else 0))
  | .int n => some (.int n)
  | .double x => some (.double x)
  | _ => none

mutual

/-- Equality of values by an equality of numbers; mappings are equal without regard to the order of
their entries. -/
def equalBy (same : Number → Number → Bool) : Document → Document → Bool
  | .null, .null => true
  | .text s, .text t => s == t
  | .list xs, .list ys => equalItems same xs ys
  | .mapping xs, .mapping ys => xs.length == ys.length && equalEntries same xs ys
  | v, w =>
    match v.number?, w.number? with
    | some x, some y => same x y
    | _, _ => false

def equalItems (same : Number → Number → Bool) : List Document → List Document → Bool
  | [], [] => true
  | x :: xs, y :: ys => x.equalBy same y && equalItems same xs ys
  | _, _ => false

/-- Every entry of the first list has an equal one under its key in the second. -/
def equalEntries (same : Number → Number → Bool) :
    List (String × Document) → List (String × Document) → Bool
  | [], _ => true
  | (k, v) :: rest, ys =>
    (match lookup k ys with
      | some w => v.equalBy same w
      | none => false) && equalEntries same rest ys

end

/-- Equality of values: numbers by their size, truth values as the numbers they count as. -/
def equal (v w : Document) : Bool := v.equalBy Number.equal w

/-- Equality of what was written: as `equal`, and what is no number equals itself. -/
def same (v w : Document) : Bool := v.equalBy Number.same w

/-- The same scalar written the same way, or lists and mappings of such numbers; a truth value in
them counts as a number. -/
def identical (v w : Document) : Bool := v.kind == w.kind && v.equalBy Number.identical w

/-! ## Values as names -/

/-- Whether a value may serve as a key; lists and mappings may not. -/
def isKey : Document → Bool
  | .list _ | .mapping _ => false
  | _ => true

/-- Looks a value up among names: it must be fit for a key, and only text can be found. -/
def find? {β : Type} (v : Document) (table : String → Option β) : Except Fault (Option β) :=
  match v with
  | .text s => .ok (table s)
  | v => if v.isKey then .ok none else .error .wrongType

/-- The name that a value is, if it is text. -/
def name? : Document → Option String
  | .text s => some s
  | _ => none

end Document

/-- A setting that names one of a family's members, or the value that names none. -/
inductive Choice (ε : Type) where
  | known (member : ε)
  | unknown (label : Document)

namespace Choice

variable {ε : Type}

def ofDocument (table : String → Option ε) (v : Document) : Choice ε :=
  match v with
  | .text s => (table s).elim (.unknown v) .known
  | v => .unknown v

end Choice

end Showreel
