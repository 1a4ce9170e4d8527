import Showreel.Proofs.Scene.Parts
import Showreel.Scene.Registry

/-!
# What scenes ask of springs

At a whole frame a scene compares, ramps, blends and types without ever failing. What it shows
beyond that follows springs, whose oscillation is a matter of its own. So each scene is told by the
progress that it asks of springs: it has a state exactly if every one of them answers, with a number
where a curve is to follow it, and what stops it is what stops one of them.
-/

namespace Showreel

open Arith (ofInt)

/-! ## Springs -/

namespace Spring

/-- A motion whose progress is a double wherever it yields one. -/
def Motion.IsMeasured (m : Motion Document) : Prop :=
  ∀ delay length frame v, m.progress delay length frame = .ok v → ∃ x, v = .double x

theorem stepResponse_eq_double {t v : Document} {config : Config Document}
    (h : stepResponse t config = .ok v) : ∃ x, v = .double x := by
  unfold stepResponse at h
  obtain ⟨early, -, h⟩ := bind_eq_ok_iff.mp h
  cases early with
  | true => exact ⟨0.0, (Except.ok.inj h).symm⟩
  | false =>
    obtain ⟨o, -, h⟩ := bind_eq_ok_iff.mp h
    obtain ⟨time, -, h⟩ := bind_eq_ok_iff.mp h
    obtain ⟨x, -, h⟩ := bind_eq_ok_iff.mp h
    exact ⟨x, (Except.ok.inj h).symm⟩

theorem clampedResponse_eq_double {t v : Document} {config : Config Document}
    (h : clampedResponse config t = .ok v) : ∃ x, v = .double x := by
  obtain ⟨value, hvalue, h⟩ := bind_eq_ok_iff.mp h
  obtain ⟨x, rfl⟩ := stepResponse_eq_double hvalue
  split at h
  · obtain ⟨y, hy⟩ := exists_least_double x 1.0
    exact ⟨y, Except.ok.inj (h.symm.trans hy)⟩
  · exact ⟨x, (Except.ok.inj h).symm⟩

/-- A spring moves in doubles, whatever numbers its parameters are. -/
theorem motion_isMeasured (fps : Document) (config : Config Document) :
    (motion fps config).IsMeasured := by
  intro delay length frame v h
  change progressAt fps _ (clampedResponse config) delay length frame = .ok v at h
  unfold progressAt at h
  obtain ⟨stopped, -, h⟩ := bind_eq_ok_iff.mp h
  cases stopped with
  | true =>
    exact absurd h (bind_ne_ok fun _ => reject_ne_ok)
  | false =>
    obtain ⟨waiting, -, h⟩ := bind_eq_ok_iff.mp h
    cases waiting with
    | true => exact ⟨0.0, (Except.ok.inj h).symm⟩
    | false =>
      obtain ⟨since, -, h⟩ := bind_eq_ok_iff.mp h
      obtain ⟨elapsed, -, h⟩ := bind_eq_ok_iff.mp h
      obtain ⟨time, -, h⟩ := bind_eq_ok_iff.mp h
      exact clampedResponse_eq_double h

theorem animated_isMeasured (fps : Document) (config : Config Document) :
    (Animated.motion fps config : Motion Document).IsMeasured := motion_isMeasured fps config

end Spring

/-- A progress that a curve can follow: there is no place on a curve for a double that is no
number. -/
def Spring.followed : Document → Except Fault Document
  | .double x => if Double.parts x = .nan then .error .noSuchIndex else .ok (.double x)
  | v => .ok v

section Curves

variable {x : Float} {v₀ v₁ : Document}

/-- What yields a value for every double that is a number, and nothing for one that is not. -/
theorem AsksFor.of_followed {β : Type} {y : Except Fault β}
    (hnumber : Double.parts x ≠ .nan → ∃ b, y = .ok b)
    (hnan : Double.parts x = .nan → y = .error .noSuchIndex) :
    AsksFor [Spring.followed (.double x)] y := by
  have hfollowed : Spring.followed (.double x) =
      if Double.parts x = .nan then .error .noSuchIndex else .ok (.double x) := rfl
  rw [hfollowed]
  by_cases hx : Double.parts x = .nan
  · rw [if_pos hx, hnan hx]
    exact ⟨by simp, fun fault h => by cases h; simp⟩
  · obtain ⟨b, hb⟩ := hnumber hx
    rw [if_neg hx, hb]
    exact ⟨by simp, nofun⟩

theorem rampOnward_asksFor (hv₀ : v₀.IsWithin 63) (hv₁ : v₁.IsWithin 63) :
    AsksFor [Spring.followed (.double x)]
      (rampOnward (.double x) [ofInt 0, ofInt 1] [v₀, v₁]) := by
  refine .of_followed (fun hx => ?_) fun hx => rampOnward_nan hx v₀ v₁
  obtain ⟨y, hy⟩ := exists_rampOnward hv₀ hv₁ hx
  exact ⟨_, hy⟩

theorem rampThrough_asksFor : AsksFor [Spring.followed (.double x)]
    (rampThrough (Document.double x) [ofInt 0, 0.5, ofInt 1] [ofInt 1, 1.15, ofInt 1]) := by
  refine .of_followed (fun hx => ?_) fun hx => rampThrough_nan hx _ _ _
  obtain ⟨y, hy⟩ := exists_rampThrough hx
  exact ⟨_, hy⟩

theorem Entrance.popped_asksFor :
    AsksFor [Spring.followed (.double x)] (popped (Document.double x)) := by
  obtain ⟨opacity, hopacity⟩ := exists_saturate_double x
  refine .total_bind ⟨_, hopacity⟩ fun _ _ => ?_
  exact (rampOnward_asksFor (.double _) (.int (by decide))).bind_total fun scale _ => ⟨_, rfl⟩

theorem Entrance.slid_asksFor (side : SlideDirection) :
    AsksFor [Spring.followed (.double x)] (slid side (Document.double x)) := by
  obtain ⟨opacity, hopacity⟩ := exists_saturate_double x
  have hoffset : side.offset.1.natAbs < 2 ^ 63 ∧ side.offset.2.natAbs < 2 ^ 63 := by
    cases side <;> decide
  refine .total_bind ⟨_, hopacity⟩ fun _ _ => ?_
  refine .congr ((rampOnward_asksFor (.int hoffset.1) (.int (by decide))).bind fun moveX _ =>
    (rampOnward_asksFor (.int hoffset.2) (.int (by decide))).bind_total fun moveY _ => ⟨_, rfl⟩) ?_
  simp

end Curves

/-- Behind the progress of a spring its value is a double. -/
theorem AsksFor.progress_bind {β : Type} {progress : Except Fault Document}
    {qs : List (Except Fault Document)} {f : Document → Except Fault β}
    (hdouble : ∀ v, progress = .ok v → ∃ x, v = .double x)
    (hf : ∀ x, AsksFor (Spring.followed (.double x) :: qs) (f (.double x))) :
    AsksFor ((progress >>= Spring.followed) :: qs) (progress >>= f) := by
  cases progress with
  | error fault =>
    refine ⟨by simp, fun fault' h => ?_⟩
    cases h
    exact List.mem_cons_self
  | ok v =>
    obtain ⟨x, rfl⟩ := hdouble v rfl
    exact hf x

/-- The progress of a motion that a curve can follow, released at a frame of a scene. -/
def Spring.Motion.followedAt (m : Motion Document) (start : Int) (length : Option Document)
    (f : Int) : Except Fault Document :=
  m.progress (ofInt start) length (ofInt f) >>= followed

section Motions

variable {m : Spring.Motion Document} (hm : m.IsMeasured) (start f : Int)

include hm

theorem Entrance.scaleIn_asksFor :
    AsksFor [m.followedAt start none f] (scaleIn m (ofInt start) (ofInt f)) :=
  .progress_bind (hm _ _ _) fun _ => popped_asksFor

theorem Entrance.slideIn_asksFor (side : SlideDirection) (length : Option Document) :
    AsksFor [m.followedAt start length f]
      (slideIn m (.known side) (ofInt start) length (ofInt f)) :=
  .progress_bind (hm _ _ _) fun _ => slid_asksFor side

end Motions

theorem AsksFor.double_bind {β γ : Type} {qs : List (Except Fault γ)} {x : Except Fault Document}
    {g : Document → Except Fault β} (hx : ∃ y, x = .ok (.double y))
    (hg : ∀ y, AsksFor qs (g (.double y))) : AsksFor qs (x >>= g) := by
  obtain ⟨y, rfl⟩ := hx
  exact hg y

/-! ## Scenes -/

section Scenes

variable {f : Int} {threshold : Document} (stage : Stage Document)
  (hsmooth : stage.smooth.IsMeasured)

/-! ### Title card -/

namespace TitleCard

def asked (stage : Stage Document) (f : Int) : List (Except Fault Document) :=
  [(Spring.Animated.motion stage.fps Spring.bouncy).followedAt 0 none f]

theorem state_asksFor : AsksFor (asked stage f) (state stage (ofInt f)) := by
  unfold state
  refine .bind_total (Entrance.scaleIn_asksFor (Spring.animated_isMeasured _ _) 0 f) fun _ _ => ?_
  obtain ⟨title, htitle⟩ := @Phase.exists_fadeAt 10 (by decide) f 8 .up
  obtain ⟨subtitle, hsubtitle⟩ := @Phase.exists_fadeAt 10 (by decide) f 18 .up
  obtain ⟨divider, hdivider⟩ := @Phase.exists_fadeAt 10 (by decide) f 25 .none
  rw [htitle, ok_bind, hsubtitle, ok_bind, hdivider]
  exact ⟨_, rfl⟩

end TitleCard

/-! ### Registering a domain -/

namespace RegisterDomain

def asked (stage : Stage Document) (f : Int) : List (Except Fault Document) :=
  [stage.smooth.followedAt detailAppears Stage.settling f]

theorem path_isPath : Pointer.IsPath path := ⟨by decide, by decide, by decide⟩

include hsmooth in
theorem state_asksFor (hf : f.natAbs < 2 ^ 63) :
    AsksFor (asked stage f) (state stage (ofInt f)) := by
  unfold state
  refine .total_bind ⟨_, Phase.through_ofInt f 68 72⟩ fun clicking _ => ?_
  refine .total_bind ⟨_, Phase.during_ofInt f pointerAppears pageTurns⟩ fun typing _ => ?_
  refine .progress_bind (hsmooth _ _ _) fun x => ?_
  refine .total_bind ⟨_, Phase.before_ofInt f pageTurned⟩ fun before _ => ?_
  refine .double_bind (Phase.exists_rampAt (by decide) f) fun _ => ?_
  refine .total_bind (Phase.exists_fadeAt (by decide) f 0 .up) fun entrance _ => ?_
  refine .total_bind (TypedField.exists_typedAt _ (by omega) typing) fun input _ => ?_
  refine .total_bind ⟨_, Phase.during_ofInt f 62 pageTurns⟩ fun hovered _ => ?_
  refine .double_bind (Phase.exists_rampAt (by decide) f) fun _ => ?_
  refine (rampOnward_asksFor (.int (by decide)) (.int (by decide))).bind_total fun moveY _ => ?_
  obtain ⟨pointer, hpointer⟩ := Pointer.exists_onPath path_isPath f typing clicking
  rw [Phase.since_ofInt, ok_bind, hpointer]
  exact ⟨_, rfl⟩

end RegisterDomain

/-! ### Verifying a domain -/

namespace DnsVerification

/-- The border blends the channels of two colours. -/
theorem border_eq {α : Type} [Arith α] (x : α) :
    border x =
      [((234 : Int), (34 : Int)), (179, 197), (8, 94)].mapM (fun ends =>
        ramp x ([succeeds, succeeds + 10].map ofInt) ([ends.1, ends.2].map ofInt)) >>=
          fun channels => channels.mapM Colour.roundChannel := rfl

/-- While the border blends, its channels are near enough to integers. -/
theorem border_blending : ∀ g ∈ List.range' 139 12, (border (ofInt (g : Nat) : Document)).isOk := by
  decide +kernel

/-- In front of the blend and behind it the border stays as it is. -/
theorem border_congr {f g : Int} (h : succeeds + 10 ≤ f ∧ succeeds + 10 ≤ g ∨
    f < succeeds ∧ g < succeeds) : border (ofInt f : Document) = border (ofInt g : Document) := by
  have hramp : ∀ m n : Int, m.natAbs < 2 ^ 63 → n.natAbs < 2 ^ 63 →
      ramp (ofInt f : Document) ([succeeds, succeeds + 10].map ofInt) ([m, n].map ofInt) =
        ramp (ofInt g : Document) ([succeeds, succeeds + 10].map ofInt) ([m, n].map ofInt) := by
    intro m n hm hn
    have hwithin : ∀ v ∈ [m, n], v.natAbs < 2 ^ 63 := by
      simp only [List.forall_mem_cons]
      exact ⟨hm, hn, by simp⟩
    have hkeys : Keyframes [succeeds, succeeds + 10] ([m, n].map ofInt) :=
      .ofInts (by decide) rfl le_rfl hwithin
    refine hkeys.ramp_congr ?_
    simp only [List.forall_mem_cons, List.not_mem_nil, false_implies, implies_true, and_true]
    unfold succeeds at h ⊢
    omega
  rw [border_eq, border_eq]
  simp only [List.mapM_cons, List.mapM_nil, hramp 234 34 (by decide) (by decide),
    hramp 179 197 (by decide) (by decide), hramp 8 94 (by decide) (by decide)]

theorem exists_border (f : Int) : ∃ b, border (ofInt f : Document) = .ok b := by
  obtain ⟨g, hg, heq⟩ : ∃ g ∈ List.range' 139 12,
      border (ofInt f : Document) = border (ofInt (g : Nat)) := by
    rcases lt_or_ge f 140 with hf | hf
    · exact ⟨139, by decide, border_congr (.inr ⟨hf, by decide⟩)⟩
    · rcases lt_or_ge f 150 with hf' | hf'
      · exact ⟨f.toNat, by rw [List.mem_range'_1]; omega, by rw [Int.toNat_of_nonneg (by omega)]⟩
      · exact ⟨150, by decide, border_congr (.inl ⟨hf', by decide⟩)⟩
  rw [heq]
  exact exists_ok_of_isOk (border_blending g hg)

theorem exists_views (hthreshold : threshold.number?.isSome) (f : Int) :
    ∃ v, views (ofInt f) threshold = .ok v := by
  have hwindows : leaves ≤ left ∧ returns ≤ returned := by decide
  obtain ⟨there, hthere⟩ := CrossFade.exists_swapAt hwindows.1 hthreshold f
  obtain ⟨back, hback⟩ := CrossFade.exists_swapAt hwindows.2 hthreshold f
  unfold views
  rw [hthere, ok_bind, hback, ok_bind, Phase.before_ofInt, ok_bind]
  split <;> exact ⟨_, rfl⟩

theorem exists_records (hf : f.natAbs < 2 ^ 63) : ∃ r, records (ofInt f : Document) = .ok r := by
  unfold records
  rw [Phase.since_ofInt, ok_bind]
  split
  · have hroom : (f - typingStarts).natAbs < (1 : Int).natAbs * 2 ^ 64 := by
      unfold typingStarts
      omega
    obtain ⟨shown, hshown⟩ := Typing.exists_shownText proof hroom
    rw [hshown]
    exact ⟨_, rfl⟩
  · exact ⟨_, rfl⟩

theorem exists_clicks {α : Type} [Arith α] [Arith.Whole α] (f : Int) :
    ∃ b, clicks (ofInt f : α) = .ok b := by
  unfold clicks
  rw [Phase.through_ofInt, ok_bind, Phase.through_ofInt]
  split <;> exact ⟨_, rfl⟩

theorem path_isPath : Pointer.IsPath path := ⟨by decide, by decide, by decide⟩

/-- Springs carry the note that something was copied and the badge of a check that succeeded. -/
def asked (stage : Stage Document) (f : Int) : List (Except Fault Document) :=
  (if 20 ≤ f ∧ f < leaves then
    [(Spring.Animated.motion stage.fps Spring.snappy).followedAt 20 none f] else []) ++
  if succeeds ≤ f then
    [(Spring.Animated.motion stage.fps Spring.bouncy).followedAt succeeds none f] else []

theorem state_asksFor (hthreshold : threshold.number?.isSome) (hf : f.natAbs < 2 ^ 63) :
    AsksFor (asked stage f) (state stage threshold (ofInt f)) := by
  unfold state
  refine .total_bind (exists_views hthreshold f) fun views _ => ?_
  refine .total_bind (exists_records hf) fun records _ => ?_
  rw [Phase.since_ofInt, ok_bind]
  refine .total_bind (exists_border f) fun border _ => ?_
  refine .total_bind (exists_clicks f) fun clicking _ => ?_
  refine .total_bind ⟨_, Phase.during_ofInt f 10 succeeds⟩ fun visible _ => ?_
  rw [Phase.during_ofInt, ok_bind]
  have hsnappy := Entrance.scaleIn_asksFor (Spring.animated_isMeasured stage.fps Spring.snappy) 20 f
  have hbouncy :=
    Entrance.scaleIn_asksFor (Spring.animated_isMeasured stage.fps Spring.bouncy) succeeds f
  refine .congr (hsnappy.choice_bind (.ok _) fun copied =>
    hbouncy.choice_bind (.ok _) fun badge => .of_exists_ok ?_) fun q => ?_
  · obtain ⟨pointer, hpointer⟩ := Pointer.exists_onPath path_isPath f visible clicking
    dsimp only
    rw [Phase.during_ofInt, ok_bind, Phase.during_ofInt, ok_bind, hpointer]
    exact ⟨_, rfl⟩
  · simp [asked]

end DnsVerification

/-! ### Embedding the widget -/

namespace EmbedWidget

def asked (stage : Stage Document) (f : Int) : List (Except Fault Document) :=
  [(Spring.Animated.motion stage.fps Spring.snappy).followedAt buttonAppears none f,
    stage.smooth.progress (ofInt panelOpens) Stage.settling (ofInt f),
    stage.smooth.followedAt 48 Stage.settling f]

theorem copyPath_isPath : Pointer.IsPath copyPath := ⟨by decide, by decide, by decide⟩

theorem widgetPath_isPath : Pointer.IsPath widgetPath := ⟨by decide, by decide, by decide⟩

theorem exists_clicks {α : Type} [Arith α] [Arith.Whole α] (f : Int) :
    ∃ b, clicks (ofInt f : α) = .ok b := by
  unfold clicks
  rw [Phase.during_ofInt, ok_bind, Phase.through_ofInt]
  split <;> exact ⟨_, rfl⟩

theorem exists_pointerAt (f : Int) : ∃ p : Pointer Document, pointerAt (ofInt f) = .ok p := by
  obtain ⟨clicking, hclicking⟩ := @exists_clicks Document _ _ f
  unfold pointerAt
  rw [Phase.during_ofInt, ok_bind, Phase.through_ofInt, ok_bind, Phase.during_ofInt, ok_bind,
    hclicking, ok_bind]
  split
  · exact Pointer.exists_onPath copyPath_isPath f _ _
  · exact Pointer.exists_onPath widgetPath_isPath f _ _

theorem exists_formField (hf : f.natAbs < 2 ^ 63) (text : String) {start : Int}
    (hstart : start.natAbs < 2 ^ 63) :
    ∃ field : TypedField Document, formField (ofInt f) text start = .ok field :=
  TypedField.exists_typedAt text (by omega) false

include hsmooth in
theorem state_asksFor (hthreshold : threshold.number?.isSome) (hf : f.natAbs < 2 ^ 63) :
    AsksFor (asked stage f) (state stage threshold (ofInt f)) := by
  unfold state
  refine .double_bind (Phase.exists_rampAt (by decide) f) fun _ => ?_
  refine .double_bind (Phase.exists_rampAt (by decide) f) fun site => ?_
  refine .progress_bind (Spring.animated_isMeasured _ _ _ _ _) fun pop => ?_
  refine .swap ((AsksFor.self _).bind fun opening hopening => ?_)
  obtain ⟨opening, rfl⟩ := hsmooth _ _ _ _ hopening
  refine .total_bind (exists_pointerAt f) fun pointer _ => ?_
  refine .total_bind ⟨_, Phase.since_ofInt f succeeds⟩ fun succeeded _ => ?_
  refine .total_bind ⟨_, Phase.before_ofInt f faded⟩ fun leaving _ => ?_
  refine .total_bind ⟨_, Phase.since_ofInt f siteAppears⟩ fun visible _ => ?_
  refine .total_bind ⟨_, Phase.since_ofInt f faded⟩ fun gone _ => ?_
  refine .total_choice (Document.exists_lt_double_of_number hthreshold site) ⟨_, rfl⟩ fun _ => ?_
  refine .total_bind ⟨_, Phase.during_ofInt f 22 fades⟩ fun copied _ => ?_
  refine .double_bind (Phase.exists_rampAt (by decide) f) fun _ => ?_
  refine .swap ((Entrance.slideIn_asksFor hsmooth 48 f .down Stage.settling).bind fun _ _ => ?_)
  refine .total_bind ⟨_, Phase.since_ofInt f buttonAppears⟩ fun button _ => ?_
  refine (rampOnward_asksFor (.int (by decide)) (.int (by decide))).bind_total fun scale _ => ?_
  refine AsksFor.exists_ok (γ := Document) ?_
  refine .total_bind ⟨_, Phase.during_ofInt f panelOpens EmbedWidget.succeeds⟩ fun panel _ => ?_
  refine .total_bind (Document.exists_lt_double_of_number hthreshold opening) fun isOpen _ => ?_
  obtain ⟨leave, hleave⟩ := @Phase.exists_rampAt success [1, 0] (by decide) f
  refine .total_choice ⟨_, hleave⟩ ⟨_, rfl⟩ fun opacity => ?_
  refine .total_bind (exists_formField hf _ (by decide)) fun name _ => ?_
  refine .total_bind (exists_formField hf _ (by decide)) fun email _ => ?_
  refine .total_bind (exists_formField hf _ (by decide)) fun message _ => ?_
  exact .double_bind (Phase.exists_rampAt (by decide) f) fun _ => .ok _

end EmbedWidget

/-! ### Dashboard -/

namespace Dashboard

def asked (stage : Stage Document) (f : Int) : List (Except Fault Document) :=
  [(Spring.Animated.motion stage.fps Spring.snappy).followedAt 12 none f]

theorem rowPath_isPath : Pointer.IsPath rowPath := ⟨by decide, by decide, by decide⟩

theorem markPath_isPath : Pointer.IsPath markPath := ⟨by decide, by decide, by decide⟩

theorem exists_pointerAt (f : Int) : ∃ p : Pointer Document, pointerAt (ofInt f) = .ok p := by
  unfold pointerAt
  rw [Phase.during_ofInt, ok_bind]
  split
  · rw [Phase.during_ofInt, ok_bind]
    exact Pointer.exists_onPath rowPath_isPath f _ _
  · rw [Phase.through_ofInt, ok_bind, Phase.during_ofInt, ok_bind]
    exact Pointer.exists_onPath markPath_isPath f _ _

theorem state_asksFor (hthreshold : threshold.number?.isSome) :
    AsksFor (asked stage f) (state stage threshold (ofInt f)) := by
  unfold state
  refine .progress_bind (Spring.animated_isMeasured _ _ _ _ _) fun bump => ?_
  refine .double_bind (Phase.exists_rampAt (by decide) f) fun detail => ?_
  refine .total_bind (exists_pointerAt f) fun pointer _ => ?_
  refine .total_bind ⟨_, Phase.before_ofInt f faded⟩ fun standing _ => ?_
  refine .double_bind (Phase.exists_rampAt (by decide) f) fun _ => ?_
  refine .total_bind (Phase.exists_fadeAt (by decide) f 0 .up) fun entrance _ => ?_
  refine .total_bind ⟨_, Phase.before_ofInt f 15⟩ fun early _ => ?_
  refine rampThrough_asksFor.bind_total fun scale _ => ?_
  obtain ⟨above, habove⟩ := Document.exists_lt_double_of_number hthreshold detail
  obtain ⟨messages, hmessages⟩ := exists_mapM_eq_ok_iff.mpr fun start (_ : start ∈ [65, 70, 75]) =>
    @Phase.exists_fadeAt 8 (by decide) f start .up
  obtain ⟨marker, hmarker⟩ := @Phase.exists_rampAt [115, 125] [1, 0] (by decide) f
  rw [Phase.during_ofInt, ok_bind, Phase.since_ofInt, ok_bind, habove, hmessages]
  dsimp only [ok_bind, pure_eq_ok]
  rw [Phase.since_ofInt, hmarker]
  split
  · exact ⟨_, rfl⟩
  · exact ⟨_, rfl⟩

end Dashboard

/-! ### Outro card -/

theorem OutroCard.exists_state (f : Int) : ∃ s : State Document, state (ofInt f) = .ok s := by
  obtain ⟨logo, hlogo⟩ := @Phase.exists_fadeAt 12 (by decide) f 0 .none
  obtain ⟨tagline, htagline⟩ := @Phase.exists_fadeAt 12 (by decide) f 0 .up
  obtain ⟨url, hurl⟩ := @Phase.exists_fadeAt 10 (by decide) f 15 .up
  obtain ⟨footer, hfooter⟩ := @Phase.exists_fadeAt 10 (by decide) f 25 .none
  unfold state
  rw [hlogo, ok_bind, htagline, ok_bind, hurl, ok_bind, hfooter]
  exact ⟨_, rfl⟩

/-- What a scene asks of springs at one of its own frames. -/
def Scene.asked (scene : Scene) (stage : Stage Document) (f : Int) : List (Except Fault Document) :=
  match scene with
  | titleCard => TitleCard.asked stage f
  | registerDomain => RegisterDomain.asked stage f
  | dnsVerification => DnsVerification.asked stage f
  | embedWidget => EmbedWidget.asked stage f
  | dashboard => Dashboard.asked stage f
  | outroCard => []

include hsmooth in
/-- A scene has a state exactly if the springs that it asks have a progress that can be followed,
and nothing else stops it. -/
theorem Scene.state_asksFor (hthreshold : threshold.number?.isSome) (hf : f.natAbs < 2 ^ 63)
    (scene : Scene) :
    AsksFor (scene.asked stage f) (scene.state stage threshold (ofInt f)) := by
  cases scene with
  | titleCard => exact (TitleCard.state_asksFor stage).bind_total fun _ _ => ⟨_, rfl⟩
  | registerDomain =>
    exact (RegisterDomain.state_asksFor stage hsmooth hf).bind_total fun _ _ => ⟨_, rfl⟩
  | dnsVerification =>
    exact (DnsVerification.state_asksFor stage hthreshold hf).bind_total fun _ _ => ⟨_, rfl⟩
  | embedWidget =>
    exact (EmbedWidget.state_asksFor stage hsmooth hthreshold hf).bind_total fun _ _ => ⟨_, rfl⟩
  | dashboard => exact (Dashboard.state_asksFor stage hthreshold).bind_total fun _ _ => ⟨_, rfl⟩
  | outroCard => exact .total_bind (OutroCard.exists_state f) fun _ _ => .ok _

end Scenes

end Showreel
