import Showreel.Document

/-!
# Snapshots

What is visible at a frame is a snapshot: a tree whose nodes are records of named fields (a scene's
state, a layer, a composed frame), tuples, lists and mappings. Its leaves are computed numbers and
values given by an author. `plain` writes a snapshot as a document. A record becomes a mapping that
starts with its kind under `type`; its fields follow in order, and a field of that name takes the
place of the kind.

A record is any `VisualState`, or another dataclass of the program, told by its class and its
fields; `plain` is `state_to_dict` of the composer's export.
-/

namespace Showreel

inductive Snapshot (α : Type) where
  | number (x : α)
  | given (v : Document)
  | list (items : List (Snapshot α))
  | tuple (items : List (Snapshot α))
  /-- A mapping. Its keys are text, as in a document; mappings with other keys are left out. -/
  | mapping (entries : List (String × Snapshot α))
  | record (kind : String) (fields : List (String × Snapshot α))
  deriving Inhabited

namespace Snapshot

variable {α : Type}

def text (s : String) : Snapshot α := .given (.text s)

def flag (b : Bool) : Snapshot α := .given (.flag b)

def count (n : Int) : Snapshot α := .given (.int n)

/-- The key under which a record's kind is written. -/
def kindKey : String := "type"

mutual

/-- A snapshot as a document. -/
def plain : Snapshot Document → Document
  | .number v | .given v => v
  | .list items | .tuple items => .list (plainItems items)
  | .mapping entries => .mapping (plainEntries entries)
  | .record kind fields => .mapping (plainFields fields [(kindKey, .text kind)])

def plainItems : List (Snapshot Document) → List Document
  | [] => []
  | x :: rest => x.plain :: plainItems rest

def plainEntries : List (String × Snapshot Document) → List (String × Document)
  | [] => []
  | (k, x) :: rest => (k, x.plain) :: plainEntries rest

/-- Puts the fields of a record one after the other into what is written of it so far. -/
def plainFields : List (String × Snapshot Document) → List (String × Document) →
    List (String × Document)
  | [], written => written
  | (k, x) :: rest, written => plainFields rest (Document.put k x.plain written)

end

mutual

def ofDocument : Document → Snapshot α
  | .list items => .list (ofItems items)
  | .mapping entries => .mapping (ofEntries entries)
  | v => .given v

def ofItems : List Document → List (Snapshot α)
  | [] => []
  | v :: rest => ofDocument v :: ofItems rest

def ofEntries : List (String × Document) → List (String × Snapshot α)
  | [] => []
  | (k, v) :: rest => (k, ofDocument v) :: ofEntries rest

end

end Snapshot

end Showreel
