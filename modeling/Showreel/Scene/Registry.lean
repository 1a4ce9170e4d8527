import Showreel.Scene.Dashboard
import Showreel.Scene.DnsVerification
import Showreel.Scene.EmbedWidget
import Showreel.Scene.OutroCard
import Showreel.Scene.RegisterDomain
import Showreel.Scene.TitleCard

/-!
# Scenes

The six scenes of the tour under the names by which storyboards refer to them.

This is the scenes' registry: `Scene` with `length` and `crossFades` is `SCENES`, an entry being a
`SceneInfo`, and `find` is `get_scene`.
-/

namespace Showreel

/-- A scene that a storyboard can place. -/
inductive Scene where
  | titleCard
  | registerDomain
  | dnsVerification
  | embedWidget
  | dashboard
  | outroCard
  deriving DecidableEq, Repr

namespace Scene

/-- Every scene, in the order of the tour. -/
def all : List Scene :=
  [titleCard, registerDomain, dnsVerification, embedWidget, dashboard, outroCard]

def name : Scene → String
  | titleCard => "title_card"
  | registerDomain => "register_domain"
  | dnsVerification => "dns_verification"
  | embedWidget => "embed_widget"
  | dashboard => "dashboard"
  | outroCard => "outro_card"

def ofName? (s : String) : Option Scene := all.find? fun scene => scene.name == s

def length : Scene → Int
  | titleCard => TitleCard.length
  | registerDomain => RegisterDomain.length
  | dnsVerification => DnsVerification.length
  | embedWidget => EmbedWidget.length
  | dashboard => Dashboard.length
  | outroCard => OutroCard.length

/-- Whether views of the scene trade places, so that it needs a threshold for their input. -/
def crossFades : Scene → Bool
  | dnsVerification | embedWidget | dashboard => true
  | _ => false

/-- The names of all scenes, in alphabetical order. -/
def names : List String := Text.sorted (all.map name)

def find (label : Document) : Except Fault Scene := do
  match ← label.find? ofName? with
  | some scene => return scene
  | none => reject (.unknownScene (← label.shown) names)

variable {α : Type} [Arith α] [Spring.Animated α]

/-- What a scene shows on a stage at one of its own frames. The stage and the threshold are looked
at only by scenes that use them. -/
def state (scene : Scene) (stage : Stage α) (threshold frame : α) : Except Fault (Snapshot α) :=
  match scene with
  | titleCard => return (← TitleCard.state stage frame).snapshot
  | registerDomain => return (← RegisterDomain.state stage frame).snapshot
  | dnsVerification => return (← DnsVerification.state stage threshold frame).snapshot
  | embedWidget => return (← EmbedWidget.state stage threshold frame).snapshot
  | dashboard => return (← Dashboard.state stage threshold frame).snapshot
  | outroCard => return (← OutroCard.state frame).snapshot

/-- What a scene shows with settings of one's own; a scene without views that trade places takes no
threshold. -/
def stateWith (scene : Scene) (stage : Stage α) (threshold : Option α) (frame : α) :
    Except Fault (Snapshot α) :=
  match threshold with
  | none => scene.state stage CrossFade.defaultThreshold frame
  | some threshold =>
    if scene.crossFades then scene.state stage threshold frame else .error .wrongType

end Scene

end Showreel
