import Showreel.Proofs.Scene.Asked
import Showreel.Proofs.Scene.PartBounds

/-!
# Bounds of the scenes

A spring may be anywhere, far beyond its end or in front of its start. At every whole frame, on a
scene or off it, all opacities that the scene shows are shares nevertheless, ripples stay small, and
no element comes into view at less than half its size. A scene shows something whenever its springs
answer.
-/

namespace Showreel

open Arith (ofInt)

open Snapshot

/-! ## Records of the scenes -/

theorem TitleCard.State.inBounds_iff {s : State ℚ} : s.snapshot.AllRecords InBounds ↔
    s.logo.IsBounded ∧ s.title.IsBounded ∧ s.subtitle.IsBounded ∧ s.divider.IsBounded := by
  simp +decide [snapshot, InBounds, fieldInBounds_iff, text]

theorem RegisterDomain.State.inBounds_iff {s : State ℚ} : s.snapshot.AllRecords InBounds ↔
    (IsShare s.formOpacity ∧ IsShare s.detailOpacity) ∧ s.formEntrance.IsBounded ∧
      IsShare s.domainInput.caretOpacity ∧ s.pointer.IsBounded := by
  simp +decide [snapshot, InBounds, fieldInBounds_iff, text, flag, IsShare]

theorem DnsVerification.State.inBounds_iff {s : State ℚ} : s.snapshot.AllRecords InBounds ↔
    (IsShare s.deaddropOpacity ∧ IsShare s.dnsOpacity) ∧ s.copied.IsBounded ∧ s.badge.IsBounded ∧
      s.pointer.IsBounded := by
  simp +decide [snapshot, Record.snapshot, InBounds, fieldInBounds_iff, text, flag, count, IsShare]

theorem EmbedWidget.State.inBounds_iff {s : State ℚ} : s.snapshot.AllRecords InBounds ↔
    (IsShare s.deaddropOpacity ∧ IsShare s.siteOpacity ∧ IsShare s.scriptOverlayOpacity ∧
        IsShare s.panelOpacity ∧ IsShare s.successOpacity) ∧
      s.scriptOverlay.IsBounded ∧ IsShare s.name.caretOpacity ∧ IsShare s.email.caretOpacity ∧
        IsShare s.message.caretOpacity ∧ s.pointer.IsBounded := by
  simp +decide [snapshot, InBounds, fieldInBounds_iff, text, flag, IsShare]

theorem Dashboard.State.inBounds_iff {s : State ℚ} : s.snapshot.AllRecords InBounds ↔
    (IsShare s.dashboardOpacity ∧ IsShare s.detailOpacity ∧ IsShare s.unreadMarkerOpacity) ∧
      s.dashboardEntrance.IsBounded ∧ (∀ message ∈ s.messages, message.IsBounded) ∧
        s.pointer.IsBounded := by
  simp +decide [snapshot, InBounds, fieldInBounds_iff, text, flag, count, IsShare]

theorem OutroCard.State.inBounds_iff {s : State ℚ} : s.snapshot.AllRecords InBounds ↔
    s.logo.IsBounded ∧ s.tagline.IsBounded ∧ s.url.IsBounded ∧ s.footer.IsBounded := by
  simp +decide [snapshot, InBounds, fieldInBounds_iff, text]

/-! ## Parts of the scenes -/

namespace DnsVerification

theorem views_ensures {needs : Prop} (threshold x : ℚ) : Ensures needs
    (fun v => IsShare v.deaddropOpacity ∧ IsShare v.dnsOpacity) (views x threshold) := by
  have hleave : (ofInt leaves : ℚ) ≤ ofInt left := Int.cast_le.mpr (by decide)
  have hreturn : (ofInt returns : ℚ) ≤ ofInt returned := Int.cast_le.mpr (by decide)
  unfold views
  refine .bind (CrossFade.swapAt_ensures hleave threshold x) fun there hthere => ?_
  refine .bind (CrossFade.swapAt_ensures hreturn threshold x) fun back hback => ?_
  refine .bind (.of_exists_ok ⟨_, Arith.lt_rat _ _⟩) fun _ _ => ?_
  exact .ite (.ok hthere) (.ok hback.symm)

theorem exists_records_rat (x : ℚ) : ∃ r, records x = .ok r := by
  obtain ⟨n, hn⟩ := Typing.exists_revealed_rat proof (ofInt typingStarts) one_ne_zero x
  have hshown : Typing.shownText x (.text proof) (ofInt 1) (ofInt typingStarts) =
      (Document.text proof).front n.toNat := by
    rw [Typing.shownText, Arith.ofInt_rat 1, Int.cast_one, hn, ok_bind]
  unfold records Phase.since
  rw [Arith.le_rat, ok_bind, hshown]
  split <;> exact ⟨_, rfl⟩

theorem exists_border_rat (x : ℚ) : ∃ b, border x = .ok b := by
  have hsorted : ([succeeds, succeeds + 10].map (ofInt : Int → ℚ)).Pairwise (· ≤ ·) := by simp
  have hramp : ∀ ends ∈ [((234 : Int), (34 : Int)), (179, 197), (8, 94)], ∃ y,
      ramp x ([succeeds, succeeds + 10].map ofInt) ([ends.1, ends.2].map ofInt) = .ok y :=
    fun _ _ => exists_interpolate_rat hsorted (by rfl) le_rfl .clamp .clamp x
  obtain ⟨channels, hchannels⟩ := exists_mapM_eq_ok_iff.mpr hramp
  rw [border_eq, hchannels, ok_bind]
  exact exists_mapM_eq_ok_iff.mpr fun channel _ => ⟨_, rfl⟩

theorem exists_clicks_rat (x : ℚ) : ∃ b, clicks x = .ok b := by
  obtain ⟨saving, hsaving⟩ := Phase.exists_through_rat x 108 112
  obtain ⟨checking, hchecking⟩ := Phase.exists_through_rat x 130 134
  unfold clicks
  rw [hsaving, ok_bind, hchecking]
  split <;> exact ⟨_, rfl⟩

end DnsVerification

theorem EmbedWidget.exists_pointerAt_isBounded (f : Int) :
    ∃ p, pointerAt (ofInt f : ℚ) = .ok p ∧ p.IsBounded := by
  obtain ⟨clicking, hclicking⟩ := @exists_clicks ℚ _ _ f
  unfold pointerAt
  rw [Phase.during_ofInt, ok_bind, Phase.through_ofInt, ok_bind, Phase.during_ofInt, ok_bind,
    hclicking, ok_bind]
  split
  · exact Pointer.exists_onPath_isBounded copyPath_isPath _ _ _
  · exact Pointer.exists_onPath_isBounded widgetPath_isPath _ _ _

theorem Dashboard.exists_pointerAt_isBounded (f : Int) :
    ∃ p, pointerAt (ofInt f : ℚ) = .ok p ∧ p.IsBounded := by
  unfold pointerAt
  rw [Phase.during_ofInt, ok_bind]
  split
  · rw [Phase.during_ofInt, ok_bind]
    exact Pointer.exists_onPath_isBounded rowPath_isPath _ _ _
  · rw [Phase.through_ofInt, ok_bind, Phase.during_ofInt, ok_bind]
    exact Pointer.exists_onPath_isBounded markPath_isPath _ _ _

/-! ## Scenes -/

section Scenes

variable [Spring.Animated ℚ] {stage : Stage ℚ} {threshold : ℚ} {f : Int}

theorem TitleCard.state_ensures :
    Ensures (stage.AnswersAt f) (fun s => s.snapshot.AllRecords InBounds)
      (state stage (ofInt f)) := by
  unfold state
  refine .bind (Entrance.scaleIn_ensures fun h => h.motion _ 0 none (by simp)) fun logo hlogo => ?_
  refine .bind (.of_exists (Entrance.exists_fadeAt_isBounded (by decide) _ _ _)) fun _ htitle => ?_
  refine .bind (.of_exists (Entrance.exists_fadeAt_isBounded (by decide) _ _ _)) fun _ hsub => ?_
  refine .bind (.of_exists (Entrance.exists_fadeAt_isBounded (by decide) _ _ _)) fun _ hline => ?_
  exact .ok (State.inBounds_iff.mpr ⟨hlogo, htitle, hsub, hline⟩)

theorem RegisterDomain.state_ensures :
    Ensures (stage.AnswersAt f) (fun s => s.snapshot.AllRecords InBounds)
      (state stage (ofInt f)) := by
  unfold state
  refine .bind (.of_exists_ok ⟨_, Phase.through_ofInt f 68 72⟩) fun clicking _ => ?_
  refine .bind (.of_exists_ok ⟨_, Phase.during_ofInt f _ _⟩) fun typing _ => ?_
  refine .bind (stage.smooth.progress_ensures (fun h => h.smooth) _ Stage.settling_pos)
    fun rise _ => ?_
  refine .bind (.of_exists_ok ⟨_, Phase.before_ofInt f _⟩) fun turned _ => ?_
  refine .bind (.of_exists (Phase.exists_rampAt_isShare (by decide) _)) fun form hform => ?_
  refine .bind (.of_exists (Entrance.exists_fadeAt_isBounded (by decide) _ _ _))
    fun entrance hentrance => ?_
  refine .bind (.of_exists (TypedField.exists_typedAt_isShare _ _ (by simp) _ _))
    fun input hinput => ?_
  refine .bind (.of_exists_ok ⟨_, Phase.during_ofInt f _ _⟩) fun hovered _ => ?_
  refine .bind (.of_exists (Phase.exists_rampAt_isShare (by decide) _)) fun detail hdetail => ?_
  refine .bind (.of_exists_ok ⟨_, rampOnward_rat _ _ _⟩) fun moveY _ => ?_
  refine .bind (.of_exists_ok ⟨_, Phase.since_ofInt f _⟩) fun interactive _ => ?_
  refine .bind (.of_exists (Pointer.exists_onPath_isBounded path_isPath _ _ _))
    fun pointer hpointer => ?_
  exact .ok (State.inBounds_iff.mpr ⟨⟨hform, hdetail⟩, hentrance, hinput, hpointer⟩)

/-- This scene shows something at every place between frames at which its springs answer. -/
theorem DnsVerification.state_ensures {needs : Prop} {x : ℚ} (hpop : needs → ∀ config (start : Int),
    ∃ p, (Spring.Animated.motion stage.fps config).progress (ofInt start) none x = .ok p) :
    Ensures needs (fun s => s.snapshot.AllRecords InBounds) (state stage threshold x) := by
  have hhidden : Entrance.IsBounded { opacity := (0.0 : ℚ) } :=
    Entrance.isBounded_of_isShare (by rw [Arith.zero_rat]; exact isShare_zero)
  have hfull : Entrance.IsBounded {} :=
    Entrance.isBounded_of_isShare (by rw [Arith.one_rat]; exact isShare_one)
  have hscaled : ∀ config (start : Int), Ensures needs Entrance.IsBounded
      (Entrance.scaleIn (Spring.Animated.motion stage.fps config) (ofInt start) x) :=
    fun config start => Entrance.scaleIn_ensures fun hneeds => hpop hneeds config start
  unfold state
  refine .bind (views_ensures threshold _) fun views hviews => ?_
  refine .bind (.of_exists_ok (exists_records_rat _)) fun records _ => ?_
  refine .bind (.of_exists_ok ⟨_, Arith.le_rat _ _⟩) fun verified _ => ?_
  refine .bind (.of_exists_ok (exists_border_rat _)) fun border _ => ?_
  refine .bind (.of_exists_ok (exists_clicks_rat _)) fun clicking _ => ?_
  refine .bind (.of_exists_ok (Phase.exists_during_rat _ _ _)) fun visible _ => ?_
  refine .bind (.of_exists_ok (Phase.exists_during_rat _ _ _)) fun shown _ => ?_
  refine .choice_bind (hscaled _ _) (.ok hhidden) fun copied hcopied => ?_
  refine .choice_bind (hscaled _ _) (.ok hfull) fun badge hbadge => ?_
  refine .bind (.of_exists_ok (Phase.exists_during_rat _ _ _)) fun away _ => ?_
  refine .bind (.of_exists_ok (Phase.exists_during_rat _ _ _)) fun hovered _ => ?_
  refine .bind (.of_exists (Pointer.exists_onPath_isBounded path_isPath _ _ _))
    fun pointer hpointer => ?_
  exact .ok (State.inBounds_iff.mpr ⟨hviews, hcopied, hbadge, hpointer⟩)

theorem EmbedWidget.state_ensures :
    Ensures (stage.AnswersAt f) (fun s => s.snapshot.AllRecords InBounds)
      (state stage threshold (ofInt f)) := by
  have hopaque : IsShare (1.0 : ℚ) := by norm_num [IsShare]
  unfold state
  refine .bind (.of_exists (Phase.exists_rampAt_isShare (by decide) _)) fun page hpage => ?_
  refine .bind (.of_exists (Phase.exists_rampAt_isShare (by decide) _)) fun site hsite => ?_
  refine .bind (Spring.Motion.progress_ensures (fun h => h.motion _) _ (by simp)) fun pop _ => ?_
  refine .bind (stage.smooth.progress_ensures (fun h => h.smooth) _ Stage.settling_pos)
    fun opening _ => ?_
  refine .bind (.of_exists (exists_pointerAt_isBounded f)) fun pointer hpointer => ?_
  refine .bind (.of_exists_ok ⟨_, Phase.since_ofInt f _⟩) fun succeeded _ => ?_
  refine .bind (.of_exists_ok ⟨_, Phase.before_ofInt f _⟩) fun leaving _ => ?_
  refine .bind (.of_exists_ok ⟨_, Phase.since_ofInt f _⟩) fun visible _ => ?_
  refine .bind (.of_exists_ok ⟨_, Phase.since_ofInt f _⟩) fun gone _ => ?_
  refine .choice_bind (.of_exists_ok ⟨_, Arith.lt_rat _ _⟩) (.of_exists_ok ⟨_, rfl⟩) fun _ _ => ?_
  refine .bind (.of_exists_ok ⟨_, Phase.during_ofInt f _ _⟩) fun copied _ => ?_
  refine .bind (.of_exists (Phase.exists_rampAt_isShare (by decide) _)) fun overlay hoverlay => ?_
  refine .bind (Entrance.slideIn_ensures (fun h => h.smooth) _ _ Stage.settling_pos)
    fun script hscript => ?_
  refine .bind (.of_exists_ok ⟨_, Phase.since_ofInt f _⟩) fun button _ => ?_
  refine .bind (.of_exists_ok ⟨_, rampOnward_rat _ _ _⟩) fun scale _ => ?_
  refine .bind (.of_exists_ok ⟨_, Phase.during_ofInt f _ _⟩) fun panel _ => ?_
  refine .bind (.of_exists_ok ⟨_, Arith.lt_rat _ _⟩) fun isOpen _ => ?_
  refine .choice_bind (.of_exists (Phase.exists_rampAt_isShare (by decide) _)) (.ok hopaque)
    fun opacity hopacity => ?_
  refine .bind (.of_exists (TypedField.exists_typedAt_isShare _ _ (by simp) _ _))
    fun name hname => ?_
  refine .bind (.of_exists (TypedField.exists_typedAt_isShare _ _ (by simp) _ _))
    fun email hemail => ?_
  refine .bind (.of_exists (TypedField.exists_typedAt_isShare _ _ (by simp) _ _))
    fun message hmessage => ?_
  refine .bind (.of_exists (Phase.exists_rampAt_isShare (by decide) _)) fun sent hsent => ?_
  exact .ok (State.inBounds_iff.mpr ⟨⟨hpage, hsite, hoverlay, hopacity, hsent⟩, hscript, hname,
    hemail, hmessage, hpointer⟩)

theorem Dashboard.state_ensures :
    Ensures (stage.AnswersAt f) (fun s => s.snapshot.AllRecords InBounds)
      (state stage threshold (ofInt f)) := by
  have hsorted : [(ofInt 0 : ℚ), 0.5, ofInt 1].Pairwise (· ≤ ·) := by
    rw [Arith.half_rat]
    norm_num
  unfold state
  refine .bind (Spring.Motion.progress_ensures (fun h => h.motion _) _ (by simp)) fun bump _ => ?_
  refine .bind (.of_exists (Phase.exists_rampAt_isShare (by decide) _)) fun detail hdetail => ?_
  refine .bind (.of_exists (exists_pointerAt_isBounded f)) fun pointer hpointer => ?_
  refine .bind (.of_exists_ok ⟨_, Phase.before_ofInt f _⟩) fun standing _ => ?_
  refine .bind (.of_exists (Phase.exists_rampAt_isShare (by decide) _)) fun page hpage => ?_
  refine .bind (.of_exists (Entrance.exists_fadeAt_isBounded (by decide) _ _ _))
    fun entrance hentrance => ?_
  refine .bind (.of_exists_ok ⟨_, Phase.before_ofInt f _⟩) fun early _ => ?_
  refine .bind (.of_exists_ok (exists_interpolate_rat hsorted (by rfl) (by simp) .extend .extend _))
    fun scale _ => ?_
  refine .bind (.of_exists_ok ⟨_, Phase.during_ofInt f _ _⟩) fun hovered _ => ?_
  refine .bind (.of_exists_ok ⟨_, Phase.since_ofInt f _⟩) fun gone _ => ?_
  refine .choice_bind (.of_exists_ok ⟨_, Arith.lt_rat _ _⟩) (.of_exists_ok ⟨_, rfl⟩) fun _ _ => ?_
  refine .bind (.mapM fun start _ =>
    .of_exists (Entrance.exists_fadeAt_isBounded (by decide) _ _ _)) fun messages hmessages => ?_
  refine .bind (.of_exists_ok ⟨_, Phase.since_ofInt f _⟩) fun read _ => ?_
  refine .bind (.of_exists (Phase.exists_rampAt_isShare (by decide) _)) fun marker hmarker => ?_
  exact .ok (State.inBounds_iff.mpr ⟨⟨hpage, hdetail, hmarker⟩, hentrance, hmessages, hpointer⟩)

omit [Spring.Animated ℚ] in
theorem OutroCard.state_ensures {needs : Prop} :
    Ensures needs (fun s => s.snapshot.AllRecords InBounds) (state (ofInt f : ℚ)) := by
  unfold state
  refine .bind (.of_exists (Entrance.exists_fadeAt_isBounded (by decide) _ _ _)) fun _ hlogo => ?_
  refine .bind (.of_exists (Entrance.exists_fadeAt_isBounded (by decide) _ _ _)) fun _ hline => ?_
  refine .bind (.of_exists (Entrance.exists_fadeAt_isBounded (by decide) _ _ _)) fun _ hurl => ?_
  refine .bind (.of_exists (Entrance.exists_fadeAt_isBounded (by decide) _ _ _)) fun _ hfooter => ?_
  exact .ok (State.inBounds_iff.mpr ⟨hlogo, hline, hurl, hfooter⟩)

theorem Scene.state_ensures (scene : Scene) :
    Ensures (stage.AnswersAt f) (fun s => s.AllRecords InBounds)
      (scene.state stage threshold (ofInt f)) := by
  cases scene with
  | titleCard => exact TitleCard.state_ensures.bind fun _ h => .ok h
  | registerDomain => exact RegisterDomain.state_ensures.bind fun _ h => .ok h
  | dnsVerification =>
    exact (DnsVerification.state_ensures fun h config start =>
      h.motion config start none (by simp)).bind fun _ h => .ok h
  | embedWidget => exact EmbedWidget.state_ensures.bind fun _ h => .ok h
  | dashboard => exact Dashboard.state_ensures.bind fun _ h => .ok h
  | outroCard => exact OutroCard.state_ensures.bind fun _ h => .ok h

/-- Wherever springs are at a whole frame, in front of a scene, on it or behind it, every opacity in
what the scene shows is between zero and one, every ripple has a radius of at most twenty and at
most half an opacity, and every element on its way into view has at least half its size. The scene
shows something if its springs answer. -/
theorem Scene.opacities_stay_in_bounds (scene : Scene) (fps threshold : ℚ) (f : Int) :
    (∀ s, scene.state (Stage.ofRate fps) threshold (ofInt f) = .ok s → s.AllRecords InBounds) ∧
      ((∀ config, (Spring.Animated.motion fps config).AnswersAt f) →
        ∃ s, scene.state (Stage.ofRate fps) threshold (ofInt f) = .ok s) := by
  have hensures : Ensures ((Stage.ofRate fps).AnswersAt f) (fun s => s.AllRecords InBounds)
    (scene.state (Stage.ofRate fps) threshold (ofInt f)) := scene.state_ensures
  exact ⟨hensures.sound, fun hmotion => hensures.total ⟨hmotion _, hmotion⟩⟩

end Scenes

/-- Springs that are always half of their way beyond the end. -/
@[reducible] def overshootingSprings : Spring.Animated ℚ where
  motion _ _ := { natural := Thunk.mk fun _ => .ok 0, progress := fun _ _ _ => .ok (3 / 2) }

/-- A logo that is larger than its full size is no more than opaque. -/
theorem Scene.opacities_stay_in_bounds_overshooting :
    ∃ s : TitleCard.State ℚ,
      @titleCard.state ℚ _ overshootingSprings (@Stage.ofRate ℚ _ overshootingSprings 30) (1 / 10)
        (ofInt (-5)) = .ok s.snapshot ∧
      s.logo.scale = 5 / 4 ∧ s.logo.opacity = 1 ∧ s.snapshot.AllRecords InBounds := by
  let _ := overshootingSprings
  obtain ⟨hbounds, htotal⟩ := opacities_stay_in_bounds titleCard 30 (1 / 10) (-5)
  have hlogo : (do
      let s ← TitleCard.state (Stage.ofRate (30 : ℚ)) (ofInt (-5))
      return (s.logo.scale, s.logo.opacity)) = .ok (5 / 4, 1) := by
    decide +kernel
  obtain ⟨shown, hshown⟩ := htotal fun _ _ _ _ => ⟨3 / 2, rfl⟩
  obtain ⟨s, hs, heq⟩ := bind_eq_ok_iff.mp hshown
  cases heq
  obtain ⟨s', hs', hvalues⟩ := bind_eq_ok_iff.mp hlogo
  obtain rfl : s = s' := Except.ok.inj (hs.symm.trans hs')
  obtain ⟨hscale, hopacity⟩ := Prod.mk.inj (Except.ok.inj hvalues)
  exact ⟨s, hshown, hscale, hopacity, hbounds _ hshown⟩

end Showreel
