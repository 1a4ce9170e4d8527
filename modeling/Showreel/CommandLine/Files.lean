import Showreel.Document

/-!
# Files

What a command line asks of the files that its paths lead to, and a folder in memory that answers.
Directories are made on demand; a path may go up again from a directory that is there or is made.

A `Files` answers for what `load_config`, `load_storyboard_file` and `export_states` ask of the file
system: `open`, `exists`, `makedirs`.
-/

namespace Showreel.CommandLine

/-- What can be asked of the files that paths lead to. -/
structure Files where
  read : String → Except Fault Document
  isThere : String → Bool
  /-- Makes a directory, and those above it, unless it is there. -/
  makeDirectory : String → Except Fault Unit
  /-- Makes a file for writing, in a directory that is there. -/
  write : String → Except Fault Unit

/-- The directory of a path: what stands in front of its last slash, without slashes at its end
unless it consists of slashes. -/
def directoryOf (path : String) : String :=
  let front := path.toList.reverse.dropWhile (· ≠ '/')
  match front.dropWhile (· = '/') with
  | [] => String.ofList front
  | directory => String.ofList directory.reverse

inductive Place where
  | file (document : Document)
  /-- A directory: those to go through from a folder to it, innermost first, if it is in the
  folder. -/
  | directory (inside : Option (List String))
  /-- Nothing, and what happens when it is opened. -/
  | nothing (fault : Fault)

/-- Documents in a folder, and the directories and empty files known outside of it. -/
structure Folder where
  name : String
  documents : List (String × Document)
  directories : List String := []
  emptyFiles : List String := []

namespace Folder

def nameLimit : Nat := 255

def pathLimit : Nat := 4095

/-- So many directories are made at once. -/
def depthLimit : Nat := 990

def isStay (part : String) : Bool := part = "" || part = "."

def up : Option (List String) → Option (List String)
  | some (_ :: above) => some above
  | _ => none

/-- Goes on from a directory by the parts of a path; `making` directories that are not there. -/
def walk (folder : Folder) (making : Bool) : Option (List String) → List String → Place
  | here, [] => .directory here
  | here, part :: rest =>
    if isStay part then folder.walk making here rest
    else if part = ".." then folder.walk making (up here) rest
    else if nameLimit < part.utf8ByteSize then .nothing .nameTooLong
    else
      match if here = some [] then Document.lookup part folder.documents else none with
      | some document => if rest.isEmpty then .file document else .nothing .notDirectory
      | none =>
        if making then folder.walk making (here.map (part :: ·)) rest else .nothing .missingFile

def plainPath (path : String) : String :=
  "/".intercalate ("" :: (path.splitOn "/").filter fun part => !isStay part)

/-- What a path from the root on leads to, `plain` without the parts that stay. -/
def lookOutside (folder : Folder) (making : Bool) (plain : String) (parts : List String) : Place :=
  if folder.directories.contains plain then .directory none
  else if folder.emptyFiles.contains plain && !isStay (parts.getLastD "") then .file .null
  else if folder.emptyFiles.any fun file => (plain ++ "/").startsWith (file ++ "/") then
    .nothing .notDirectory
  else folder.walk making none parts

/-- What a path leads to; `making` directories that are not there. -/
def lookUp (folder : Folder) (making : Bool) (path : String) : Place :=
  if path.contains '\x00' then .nothing .badValue
  else if pathLimit < path.utf8ByteSize then .nothing .nameTooLong
  else
    let parts := path.splitOn "/"
    if parts.head? = some folder.name then folder.walk making (some []) parts.tail
    else if !path.startsWith "/" then folder.walk making none parts
    else folder.lookOutside making (plainPath path) parts

def read (folder : Folder) (path : String) : Except Fault Document :=
  match folder.lookUp false path with
  | .file document => .ok document
  | .directory _ => .error .isDirectory
  | .nothing fault => .error fault

def isThere (folder : Folder) (path : String) : Bool :=
  match folder.lookUp false path with
  | .nothing _ => false
  | _ => true

/-- The number of directories that a path asks for and that are not there. -/
def missingDepth (folder : Folder) (path : String) : Nat :=
  if folder.isThere path then 0 else (path.splitOn "/").countP (· ≠ "")

def makeDirectory (folder : Folder) (path : String) : Except Fault Unit :=
  if depthLimit < folder.missingDepth path then .error .tooDeep
  else
    match folder.lookUp true path with
    | .file _ => .error .fileExists
    | .directory _ => .ok ()
    | .nothing fault => .error fault

/-- The directories that the parts of a path go through from one on, up to where they leave the
folder. -/
def through : List String → List String → List (List String)
  | here, [] => [here]
  | here, part :: rest =>
    if isStay part then through here rest
    else if part = ".." then
      match here with
      | [] => [here]
      | _ :: above => here :: through above rest
    else here :: through (part :: here) rest

/-- The directories in the folder that are there once that of a path is made. -/
def madeFor (folder : Folder) (path : String) : List (List String) :=
  match (directoryOf path).splitOn "/" with
  | first :: rest => if first = folder.name then through [] rest else []
  | [] => []

/-- Makes a file for writing, once its directory is made. -/
def write (folder : Folder) (path : String) : Except Fault Unit :=
  let last := (path.splitOn "/").getLastD ""
  if isStay last || last = ".." then .error .isDirectory
  else
    match folder.lookUp true path with
    | .file _ => .ok ()
    | .nothing fault => .error fault
    | .directory place =>
      let isMade := place.any fun place => (folder.madeFor path).contains place
      if isMade || folder.isThere path then .error .isDirectory else .ok ()

/-- The name in the folder itself under which a path writes. -/
def target? (folder : Folder) (path : String) : Option String :=
  match folder.lookUp true (directoryOf path) with
  | .directory (some []) => (path.splitOn "/").getLast?
  | _ => none

def files (folder : Folder) : Files :=
  { read := folder.read, isThere := folder.isThere, makeDirectory := folder.makeDirectory
    write := folder.write }

end Folder

end Showreel.CommandLine
