import Showreel.Effect

/-!
# Storyboards

A storyboard is the authored plan of a composition: general settings and a sequence of scene
entries. Except for the two settings that must name one of a family, values are kept as they were
written, and are checked when the plan is built. Each entry knows its place in the sequence.

These are `SceneEntry` and `Storyboard` of the brain, with `add_scene`, `get_scene_ids`
(`sceneIds`), `to_dict` and `from_dict`; `Timing` is `TimingType`, and the two `ofSetting` are
`parse_enum`. A `Board` is a `Storyboard` object, which holds its entries by reference, and a
`Storyboard` what is read off it.
-/

namespace Showreel

inductive Timing where
  | linear
  | spring
  deriving DecidableEq, Repr

namespace Timing

/-- Every timing, in the order in which they are listed. -/
def all : List Timing := [linear, spring]

def name : Timing → String
  | linear => "linear"
  | spring => "spring"

def ofName? (s : String) : Option Timing := all.find? fun t => t.name == s

def ofSetting (v : Document) : Except Fault Timing :=
  match Choice.ofDocument ofName? v with
  | .known t => .ok t
  | .unknown label => do reject (.unknownMember "TimingType" (← label.shown) (all.map name))

end Timing

def Presentation.ofSetting (v : Document) : Except Fault Presentation :=
  match Choice.ofDocument ofName? v with
  | .known p => .ok p
  | .unknown label => do
    reject (.unknownMember "TransitionType" (← label.shown) (all.map name))

/-- One scene of a plan and the way into it. -/
structure SceneEntry where
  sceneId : Document
  /-- The scene's own length, if absent. -/
  duration : Document := .null
  transitionIn : Presentation := .crossfade
  transitionDuration : Document := .int 15
  timing : Timing := .linear
  easing : Document := .text "linear"
  spring : Document := .text "smooth"
  sceneIndex : Nat := 0

namespace SceneEntry

/-- An entry as a document; its place is left to the sequence. -/
def toDocument (e : SceneEntry) : Document :=
  .mapping
    [("scene_id", e.sceneId), ("duration", e.duration),
      ("transition_in", .text e.transitionIn.name), ("transition_duration", e.transitionDuration),
      ("timing", .text e.timing.name), ("easing", e.easing), ("spring", e.spring)]

def ofDocument (d : Document) : Except Fault SceneEntry := do
  return {
    sceneId := ← d.setting "scene_id" (.text "")
    duration := ← d.setting "duration" .null
    transitionIn := ← Presentation.ofSetting (← d.setting "transition_in" (.text "crossfade"))
    transitionDuration := ← d.setting "transition_duration" (.int 15)
    timing := ← Timing.ofSetting (← d.setting "timing" (.text "linear"))
    easing := ← d.setting "easing" (.text "linear")
    spring := ← d.setting "spring" (.text "smooth") }

/-- Equality of entries, that of what was written in them. -/
def equal (a b : SceneEntry) : Bool :=
  a.sceneId.same b.sceneId && a.duration.same b.duration && a.transitionIn == b.transitionIn
    && a.transitionDuration.same b.transitionDuration && a.timing == b.timing
    && a.easing.same b.easing && a.spring.same b.spring && a.sceneIndex == b.sceneIndex

end SceneEntry

/-- What a storyboard says about the composition as a whole. -/
structure Heading where
  compositionId : Document
  title : Document := .text ""
  fps : Document := .int 30
  width : Document := .int 1920
  height : Document := .int 1080

/-- A storyboard as it is seen, every entry with its values of the moment. -/
structure Storyboard extends Heading where
  scenes : List SceneEntry := []

/-- A storyboard as it is kept. It holds its entries by their numbers among all that were made, so
that one entry can be held twice, or by several storyboards. -/
structure Board extends Heading where
  scenes : List Nat := []

namespace Board

/-- Adds an entry at the end. It is the entry itself that is told its place, wherever else it is
held. -/
def addScene (board : Board) (entries : List SceneEntry) (number : Nat) :
    Board × List SceneEntry :=
  ({ board with scenes := board.scenes ++ [number] },
    entries.modify number fun e => { e with sceneIndex := board.scenes.length })

/-- The storyboard that is seen while the entries have the given values. -/
def seen (board : Board) (entries : List SceneEntry) : Storyboard :=
  { toHeading := board.toHeading, scenes := board.scenes.filterMap fun number => entries[number]? }

end Board

namespace Storyboard

/-- How a storyboard is kept whose entries are those from a number on. -/
def board (sb : Storyboard) (first : Nat) : Board :=
  { toHeading := sb.toHeading, scenes := List.range' first sb.scenes.length }

/-- Adds an entry that was just made and is held nowhere else. -/
def addScene (sb : Storyboard) (entry : SceneEntry) : Storyboard :=
  let (board, entries) := (sb.board 0).addScene (sb.scenes ++ [entry]) sb.scenes.length
  board.seen entries

/-- The scenes that the entries name, in order. -/
def sceneIds (sb : Storyboard) : List Document := sb.scenes.map SceneEntry.sceneId

/-- A plan as a document. -/
def toDocument (sb : Storyboard) : Document :=
  .mapping
    [("composition_id", sb.compositionId), ("title", sb.title), ("fps", sb.fps),
      ("width", sb.width), ("height", sb.height),
      ("scenes", .list (sb.scenes.map SceneEntry.toDocument))]

def ofDocument (d : Document) : Except Fault Storyboard := do
  let compositionId ← d.setting "composition_id" (.text "")
  let title ← d.setting "title" (.text "")
  let fps ← d.setting "fps" (.int 30)
  let width ← d.setting "width" (.int 1920)
  let height ← d.setting "height" (.int 1080)
  let entries ← (← (← d.setting "scenes" (.list [])).items).mapM SceneEntry.ofDocument
  return entries.foldl addScene { compositionId, title, fps, width, height }

/-- Equality of plans, that of what was written in them. -/
def equal (a b : Storyboard) : Bool :=
  a.compositionId.same b.compositionId && a.title.same b.title && a.fps.same b.fps
    && a.width.same b.width && a.height.same b.height && a.scenes.length == b.scenes.length
    && (a.scenes.zip b.scenes).all fun (x, y) => x.equal y

end Storyboard

end Showreel
