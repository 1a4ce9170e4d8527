import Showreel.Colour
import Showreel.Scene.CrossFade
import Showreel.Scene.Phase
import Showreel.Scene.Pointer
import Showreel.Scene.Stage
import Showreel.Typing

/-!
# Verifying a domain

165 frames: the user copies a record, the view cross-fades to the panel of the domain's provider,
where the record is typed in and saved; the view fades back, and a check succeeds: a badge pops up
and the border of the panel blends from yellow to green. The two views trade places twice, with
exchanged roles.

`State` is `DnsVerificationState` and `state` is `scene_state` of the `dns_verification` scene;
`Record` is `DnsRecord`, `existing` is `EXISTING_RECORDS` and `path` is `CURSOR_PATH`.
-/

namespace Showreel.DnsVerification

open Arith

def length : Int := 165

/-- The content of the record that proves ownership. -/
def proof : String := "deaddrop-verify=a9c55678-1234-5678-abcd-ef0123456789"

/-- The first frame of the fade to the provider's panel. -/
def leaves : Int := 30

/-- The last frame of the fade to the provider's panel. -/
def left : Int := 44

/-- The first frame of the fade back. -/
def returns : Int := 115

/-- The last frame of the fade back. -/
def returned : Int := 124

def typingStarts : Int := 52

def succeeds : Int := 140

def path : List (String × Int × Int × Int) :=
  [("enter", 10, 500, 350), ("code_block", 20, 460, 420), ("dns_content", left, 580, 340),
    ("typing_done", typingStarts + proof.length, 580, 340), ("to_save", 105, 780, 560),
    ("save", 108, 780, 560), ("back_on_deaddrop", returned, 340, 530), ("to_check", 125, 340, 530),
    ("check", 129, 340, 530)]

/-- A row of the provider's panel. -/
structure Record where
  type : String
  name : String
  content : Document
  isNew : Bool := false

def Record.snapshot {α : Type} (r : Record) : Snapshot α :=
  .record "DnsRecord"
    [("type", .text r.type), ("name", .text r.name), ("content", .given r.content),
      ("is_new", .flag r.isNew)]

def existing : List Record :=
  [{ type := "A", name := "mycoolproject.com", content := .text "76.76.21.21" },
    { type := "CNAME", name := "www", content := .text "mycoolproject.com" }]

structure State (α : Type) [Arith α] where
  browserUrl : String
  deaddropOpacity : α
  deaddropInteractive : Bool
  dnsOpacity : α
  dnsInteractive : Bool
  records : List Record
  copiedVisible : Bool
  copied : Entrance α
  verified : Bool
  badge : Entrance α
  badgeText : String
  panelTitle : String
  panelBorder : List Int
  panelBorderCss : String
  checkHovered : Bool
  pointer : Pointer α

variable {α : Type}

def State.snapshot [Arith α] (s : State α) : Snapshot α :=
  .record "DnsVerificationState"
    [("browser_url", .text s.browserUrl), ("deaddrop_opacity", .number s.deaddropOpacity),
      ("deaddrop_interactive", .flag s.deaddropInteractive), ("dns_opacity", .number s.dnsOpacity),
      ("dns_interactive", .flag s.dnsInteractive),
      ("dns_records", .tuple (s.records.map Record.snapshot)),
      ("copied_visible", .flag s.copiedVisible), ("copied", s.copied.snapshot),
      ("verified", .flag s.verified), ("badge", s.badge.snapshot),
      ("badge_text", .text s.badgeText), ("panel_title", .text s.panelTitle),
      ("panel_border", .tuple (s.panelBorder.map .count)),
      ("panel_border_css", .text s.panelBorderCss), ("check_hovered", .flag s.checkHovered),
      ("cursor", s.pointer.snapshot)]

/-- Opacity and input of the tour's own page and of the provider's panel. -/
structure Views (α : Type) where
  deaddropOpacity : α
  deaddropInteractive : Bool
  dnsOpacity : α
  dnsInteractive : Bool

/-- The two views: until the fade back starts they are those of the first fade, then those of the
second, in which the page comes in and the panel goes out. -/
def views [Arith α] (frame threshold : α) : Except Fault (Views α) := do
  let there ← CrossFade.swapAt frame (ofInt leaves) (ofInt left) threshold
  let back ← CrossFade.swapAt frame (ofInt returns) (ofInt returned) threshold
  if ← Phase.before frame returns then
    return ⟨there.outgoingOpacity, there.outgoingInteractive, there.incomingOpacity,
      there.incomingInteractive⟩
  else
    return ⟨back.incomingOpacity, back.incomingInteractive, back.outgoingOpacity,
      back.outgoingInteractive⟩

/-- The rows of the panel; the new one fills up as it is typed. -/
def records [Arith α] (frame : α) : Except Fault (List Record) := do
  if ← Phase.since frame 48 then
    let content ← Typing.shownText frame (.text proof) (ofInt 1) (ofInt typingStarts)
    return existing ++ [{ type := "TXT", name := "mycoolproject.com", content, isNew := true }]
  else return existing

/-- The border of the panel, yellow before the check succeeds and green some frames later. -/
def border [Arith α] (frame : α) : Except Fault (List Int) :=
  interpolateColour frame [ofInt succeeds, ofInt (succeeds + 10)] [.hex "#eab308", .hex "#22c55e"]
    (.known .clamp) (.known .clamp) none

/-- Whether the pointer clicks: on the save button, then on the check button. -/
def clicks [Arith α] (frame : α) : Except Fault Bool := do
  if ← Phase.through frame 108 112 then return true else Phase.through frame 130 134

variable [Arith α] [Spring.Animated α]

def state (stage : Stage α) (threshold frame : α) : Except Fault (State α) := do
  let views ← views frame threshold
  let records ← records frame
  let verified ← Phase.since frame succeeds
  let border ← border frame
  let clicking ← clicks frame
  let pointerVisible ← Phase.during frame 10 succeeds
  let copiedVisible ← Phase.during frame 20 leaves
  let copied ←
    if copiedVisible then
      Entrance.scaleIn (Spring.Animated.motion stage.fps Spring.snappy) (ofInt 20) frame
    else .ok { opacity := 0.0 }
  let badge ←
    if verified then
      Entrance.scaleIn (Spring.Animated.motion stage.fps Spring.bouncy) (ofInt succeeds) frame
    else .ok {}
  return {
    browserUrl :=
      if ← Phase.during frame leaves returned then "dash.cloudflare.com/dns/mycoolproject.com"
      else "deaddrop.io/domains/mycoolproject.com"
    deaddropOpacity := views.deaddropOpacity
    deaddropInteractive := views.deaddropInteractive
    dnsOpacity := views.dnsOpacity
    dnsInteractive := views.dnsInteractive
    records, copiedVisible, copied, verified, badge
    badgeText := if verified then "Verified" else "Unverified"
    panelTitle := if verified then "Widget Embed Code" else "DNS Verification Required"
    panelBorder := border
    panelBorderCss := (Colour.css? border).getD ""
    checkHovered := ← Phase.during frame 125 succeeds
    pointer := ← Pointer.onPath frame path pointerVisible clicking }

end Showreel.DnsVerification
