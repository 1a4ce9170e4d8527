import Showreel.Proofs.Director.Plans

/-!
# Presenting plans

Presenting a plan makes its timeline and then reports it. A plan that is not accepted is rejected,
whatever is wrong with it, as long as messages can tell its names and numbers. A plan that is
accepted is presented unless the report cannot show a number: the length of the whole may have more
digits than any number in the plan.
-/

namespace Showreel

theorem SceneEntry.IsTellable.exists_shown_frames {e : SceneEntry} (h : e.IsTellable) :
    ∃ x, Arith.shown (Arith.ofInt e.frames : Document) = .ok x :=
  Document.exists_shown_int_iff.mpr h.frames

theorem SceneEntry.IsTellable.exists_shown_overlap {e : SceneEntry} (h : e.IsTellable) :
    ∃ x, Arith.shown (Arith.ofInt e.overlap : Document) = .ok x :=
  Document.exists_shown_int_iff.mpr h.overlap

namespace Director

variable {d : Director} {stage : Stage Document} {e : SceneEntry}

/-! ## Refused plans -/

theorem Places.item {s : Segment Document} (hplaces : d.Places stage e s)
    (hpos : 0 < e.frames) (he : e.IsTellable) :
    (Item.segment s).IsWhole ∧ (Item.segment s).IsShown := by
  refine ⟨hplaces.isWhole d hpos, ?_, ?_⟩
  · obtain ⟨scene, -, rfl⟩ := hplaces
    exact he.sceneId.shown
  · rw [hplaces.eq_length]
    exact he.exists_shown_frames

theorem Leads.item {t : Transition Document} (hleads : d.Leads e t) (hnonneg : 0 ≤ e.overlap)
    (he : e.IsTellable) : (Item.transition t).IsWhole ∧ (Item.transition t).IsShown := by
  have hshown : ∃ x, Arith.shown t.length = .ok x := by
    rw [hleads.eq_length]
    exact he.exists_shown_overlap
  exact ⟨hleads.isWhole d hnonneg, hshown⟩

theorem segment_onlyRejects (hwhole : e.IsWhole) (he : e.IsTellable) {scene : Scene}
    (hscene : e.scene? = some scene) : OnlyRejects (d.segment stage e scene) := by
  unfold segment
  rw [hwhole.lengthOf_eq hscene]
  exact Segment.build_onlyRejects he.exists_shown_frames he.sceneId.shown _

theorem opening_onlyRejects (hwhole : e.IsWhole) (he : e.IsTellable) :
    OnlyRejects (d.opening stage e) := by
  refine .bind (Scene.find_onlyRejects he.sceneId) fun scene hscene => ?_
  exact .bind (segment_onlyRejects hwhole he (Scene.find_eq_ok_iff.mp hscene)) fun _ _ => .ok _

theorem transition_onlyRejects (hwhole : e.IsWhole) (he : e.IsTellable) :
    OnlyRejects (d.transition e) := by
  unfold transition
  rw [hwhole.transitionDuration_eq]
  refine .bind (easing_onlyRejects he.easing) fun easing _ => ?_
  cases e.timing with
  | linear => exact Transition.build_onlyRejects he.exists_shown_overlap _ _ _
  | spring =>
    refine .bind (d.spring_onlyRejects he.spring) fun config _ => ?_
    exact Transition.build_onlyRejects he.exists_shown_overlap _ _ _

theorem continuation_onlyRejects (hwhole : e.IsWhole) (he : e.IsTellable) :
    OnlyRejects (d.continuation stage e) := by
  refine .bind (Scene.find_onlyRejects he.sceneId) fun scene hscene => ?_
  refine .bind (transition_onlyRejects hwhole he) fun _ _ => ?_
  exact .bind (segment_onlyRejects hwhole he (Scene.find_eq_ok_iff.mp hscene)) fun _ _ => .ok _

section Plans

variable {plan : Storyboard} {memory : Spring.Memory} {t : Timeline Document}

/-- What the entries of a plan became can be told in messages. -/
theorem items_shown {first : SceneEntry} {others : List SceneEntry} (hfirst : first.IsWhole)
    (hothers : ∀ e ∈ others, e.IsWhole) (htell : ∀ e ∈ first :: others, e.IsTellable)
    {items : List (Item Document)} {further : List (List (Item Document))}
    (hitems : d.opening stage first = .ok items)
    (hfurther : others.mapM (d.continuation stage) = .ok further) :
    ∀ item ∈ items ++ further.flatten, item.IsWhole ∧ item.IsShown := by
  rw [List.forall_mem_cons] at htell
  obtain ⟨hpos, s, hs, rfl⟩ := (d.opening_eq_ok_iff hfirst).mp hitems
  intro item hitem
  rcases List.mem_append.mp hitem with hitem | hitem
  · rw [List.mem_singleton.mp hitem]
    exact hs.item hpos htell.1
  · obtain ⟨pair, hpair, hitem⟩ := List.mem_flatten.mp hitem
    obtain ⟨e, he, hcontinuation⟩ := exists_of_mem_mapM hfurther hpair
    obtain ⟨⟨hnonneg, hpos⟩, t, s, hleads, hplaces, rfl⟩ :=
      (d.continuation_eq_ok_iff (hothers e he)).mp hcontinuation
    rcases List.mem_pair.mp hitem with rfl | rfl
    · exact hleads.item hnonneg (htell.2 e he)
    · exact hplaces.item hpos (htell.2 e he)

/-- Every check on the way to a timeline refuses with a message. -/
theorem timeline_onlyRejects (hplan : plan.IsWhole) (htell : plan.IsTellable) :
    OnlyRejects (d.timeline plan memory) := by
  obtain ⟨fps, hfps⟩ := hplan.fps
  have hwhole := hplan.entries
  have hentries := htell.entries
  cases hscenes : plan.scenes with
  | nil =>
    rw [timeline, hscenes]
    exact .bind (.of_exists_ok htell.compositionId) fun _ _ => .reject _
  | cons first others =>
    rw [hscenes, List.forall_mem_cons] at hwhole
    rw [hscenes] at hentries
    rw [timeline_of_cons hscenes]
    refine .bind (opening_onlyRejects hwhole.1 (hentries first List.mem_cons_self))
      fun items hitems => .bind (.mapM fun e he => ?_) fun further hfurther => ?_
    · exact continuation_onlyRejects (hwhole.2 e he) (hentries e (List.mem_cons_of_mem _ he))
    · have hshown := htell.fps
      rw [hfps] at hshown ⊢
      let _ := memory.animated
      exact Timeline.build_onlyRejects (items_shown hwhole.1 hwhole.2 hentries hitems hfurther)
        hshown _

/-! ## Reports -/

theorem exists_present_iff (hplan : plan.IsWhole) :
    (∃ r, d.present plan memory = .ok r) ↔ d.Accepts plan ∧
      (∃ s, plan.compositionId.shown = .ok s) ∧ plan.total.natAbs < Text.unwritable ∧
      ∃ s, plan.fps.shown = .ok s := by
  rw [← exists_timeline_iff hplan, ← Document.exists_shown_int_iff]
  unfold present
  constructor
  · rintro ⟨r, h⟩
    obtain ⟨t, ht, h⟩ := bind_eq_ok_iff.mp h
    obtain ⟨report, hreport, -⟩ := bind_eq_ok_iff.mp h
    obtain ⟨id, hid, hreport⟩ := bind_eq_ok_iff.mp hreport
    obtain ⟨duration, hduration, hreport⟩ := bind_eq_ok_iff.mp hreport
    obtain ⟨frames, hframes, hreport⟩ := bind_eq_ok_iff.mp hreport
    obtain ⟨fps, hfps, -⟩ := bind_eq_ok_iff.mp hreport
    cases (realizes_of_timeline hplan ht).duration_eq.symm.trans hduration
    exact ⟨⟨t, ht⟩, ⟨id, hid⟩, ⟨frames, hframes⟩, fps, hfps⟩
  · rintro ⟨⟨t, ht⟩, ⟨id, hid⟩, ⟨frames, hframes⟩, fps, hfps⟩
    have hduration := (realizes_of_timeline hplan ht).duration_eq
    rw [ht, ok_bind, report, hid, ok_bind, hduration, ok_bind, hframes, ok_bind, hfps]
    exact ⟨_, rfl⟩

/-- The whole may be too long to be reported even if every number in the plan can be shown. -/
theorem present_eq_error (hplan : plan.IsWhole) (haccepts : d.Accepts plan)
    (hid : ∃ s, plan.compositionId.shown = .ok s) (hlong : ¬ plan.total.natAbs < Text.unwritable) :
    d.present plan memory = .error .badValue := by
  obtain ⟨t, ht⟩ := (exists_timeline_iff hplan).mpr haccepts
  obtain ⟨id, hid⟩ := hid
  have hduration := (realizes_of_timeline hplan ht).duration_eq
  rw [present, ht, ok_bind, report, hid, ok_bind, hduration, ok_bind,
    Document.shown_int_eq_error hlong]
  rfl

/-- The way into the first entry is looked at by nobody. -/
theorem present_of_first {first : SceneEntry} {others : List SceneEntry}
    (hscenes : plan.scenes = first :: others) (presentation : Presentation) (length : Document)
    (timing : Timing) (easing spring : Document) :
    d.present { plan with
      scenes := { first with
        transitionIn := presentation, transitionDuration := length, timing, easing, spring } ::
          others } memory = d.present plan memory := by
  unfold present
  rw [timeline_of_cons hscenes, timeline_of_cons rfl]
  have hreport : ∀ t, report { plan with
      scenes := { first with
        transitionIn := presentation, transitionDuration := length, timing, easing, spring } ::
          others } t = report plan t := by
    intro t
    unfold report
    rw [hscenes]
    rfl
  simp only [hreport]
  rfl

end Plans

/-- A plan with integer lengths becomes a timeline exactly if it is accepted, and then shows every
entry in its place. It is presented if the report can show the whole as well. Any other plan is
rejected. -/
theorem plan_presented_iff_accepted (d : Director) (plan : Storyboard) (memory : Spring.Memory)
    (hplan : plan.IsWhole) :
    ((∃ t, d.timeline plan memory = .ok t) ↔ d.Accepts plan) ∧
      ((∃ r, d.present plan memory = .ok r) ↔ d.Accepts plan ∧
        (∃ s, plan.compositionId.shown = .ok s) ∧ plan.total.natAbs < Text.unwritable ∧
        ∃ s, plan.fps.shown = .ok s) ∧
      (plan.IsTellable → ¬ d.Accepts plan →
        ∃ cause, d.present plan memory = .error (.rejected cause)) ∧
      (plan.IsTellable → d.Accepts plan → ¬ plan.total.natAbs < Text.unwritable →
        d.present plan memory = .error .badValue) ∧
      (∀ t report, d.present plan memory = .ok (t, report) →
        d.Realizes plan t ∧ t.duration = .ok (.int plan.total)) ∧
      ∀ first others, plan.scenes = first :: others →
        ∀ presentation length timing easing spring,
          d.present { plan with scenes := { first with
            transitionIn := presentation, transitionDuration := length
            timing, easing, spring } :: others } memory = d.present plan memory := by
  refine ⟨exists_timeline_iff hplan, exists_present_iff hplan, fun htell hrefused => ?_,
    fun htell haccepts hlong => present_eq_error hplan haccepts htell.compositionId hlong,
    fun t report h => ?_, fun first others hscenes => present_of_first hscenes⟩
  · obtain ⟨cause, hcause⟩ := (timeline_onlyRejects hplan htell).exists_rejected
      (mt (exists_timeline_iff hplan).mp hrefused)
    exact ⟨cause, by rw [present, hcause, error_bind]⟩
  · obtain ⟨t', ht, h⟩ := bind_eq_ok_iff.mp h
    obtain ⟨_, _, h⟩ := bind_eq_ok_iff.mp h
    cases h
    have hrealizes := realizes_of_timeline hplan ht
    exact ⟨hrealizes, hrealizes.duration_eq⟩

/-- A director that knows the springs that are always there. -/
def builtin : Director :=
  { configuration := .mapping [], springs := Spring.Presets.builtin, threshold := .double 0.1 }

/-- Two cards, the way into the first of which could not be taken. -/
def cards : Storyboard := {
  compositionId := .text "cards"
  scenes := [
    { sceneId := .text "title_card", transitionDuration := .int (-5), easing := .text "wobble" },
    { sceneId := .text "outro_card", duration := .int 40, transitionIn := .slideLeft
      timing := .spring, spring := .text "bouncy" }] }

theorem plan_presented_iff_accepted_cards :
    cards.IsWhole ∧ builtin.Accepts cards ∧ ∃ t report, builtin.present cards {} = .ok (t, report) ∧
      builtin.Realizes cards t ∧ t.duration = .ok (.int 85) := by
  have hwhole : cards.IsWhole := by
    refine ⟨⟨30, rfl⟩, ?_⟩
    simp only [cards, List.forall_mem_cons]
    exact ⟨⟨.inl rfl, -5, rfl⟩, ⟨.inr ⟨40, rfl⟩, 15, rfl⟩, by simp⟩
  have haccepts : builtin.Accepts cards := by
    refine ⟨by simp [cards], ⟨30, rfl, by decide⟩, ?_, ?_⟩
    · simp only [cards, List.forall_mem_cons]
      exact ⟨⟨by decide, by decide⟩, ⟨by decide, by decide⟩, by simp⟩
    · simp only [cards, List.isChain_cons_cons, List.isChain_singleton, and_true]
      exact ⟨⟨⟨by decide, fun _ => by rfl⟩, by decide⟩, by decide, by decide⟩
  obtain ⟨-, hpresented, -, -, hrealizes, -⟩ := plan_presented_iff_accepted builtin cards {} hwhole
  have htotal : cards.total.natAbs < Text.unwritable := Text.lt_unwritable (by decide)
  have hrate : cards.fps.shown = .ok "30" :=
    Document.shown_int_eq_ok (Text.lt_unwritable (by decide))
  obtain ⟨⟨t, report⟩, hpresent⟩ := hpresented.mpr
    ⟨haccepts, ⟨_, rfl⟩, htotal, ⟨"30", hrate⟩⟩
  exact ⟨hwhole, haccepts, t, report, hpresent, hrealizes t report hpresent⟩

/-- A card that lasts as long as a number that can be shown. -/
def longestCard : SceneEntry := {
  sceneId := .text "outro_card"
  duration := .int (Text.unwritable - 1)
  transitionDuration := .int 0 }

/-- Two such cards, one behind the other. -/
def endless : Storyboard := {
  compositionId := .text "endless"
  scenes := [longestCard, longestCard] }

/-- An accepted plan all of whose numbers can be shown need not be presented: both cards together
last too long to tell. -/
theorem endless_not_presented : endless.IsWhole ∧ endless.IsTellable ∧ builtin.Accepts endless ∧
    builtin.present endless {} = .error .badValue := by
  have hone : 1 < Text.unwritable := Text.lt_unwritable (by decide)
  have hframes : longestCard.frames = Text.unwritable - 1 := rfl
  have hoverlap : longestCard.overlap = 0 := rfl
  have hwhole : endless.IsWhole := by
    refine ⟨⟨30, rfl⟩, ?_⟩
    simp only [endless, List.forall_mem_cons]
    exact ⟨⟨.inr ⟨_, rfl⟩, 0, rfl⟩, ⟨.inr ⟨_, rfl⟩, 0, rfl⟩, by simp⟩
  have hcard : longestCard.IsTellable :=
    ⟨⟨rfl, _, rfl⟩, ⟨rfl, _, rfl⟩, ⟨rfl, _, rfl⟩, by rw [hframes]; omega, by rw [hoverlap]; omega⟩
  have htell : endless.IsTellable := by
    refine ⟨⟨_, rfl⟩, ⟨_, Document.shown_int_eq_ok (Text.lt_unwritable (by decide))⟩, ?_⟩
    simp only [endless, List.forall_mem_cons]
    exact ⟨hcard, hcard, by simp⟩
  have haccepts : builtin.Accepts endless := by
    refine ⟨by simp [endless], ⟨30, rfl, by decide⟩, ?_, ?_⟩
    · simp only [endless, List.forall_mem_cons]
      have hentry : longestCard.scene?.isSome ∧ 0 < longestCard.frames :=
        ⟨by decide, by rw [hframes]; omega⟩
      exact ⟨hentry, hentry, by simp⟩
    · simp only [endless, List.isChain_cons_cons, List.isChain_singleton, and_true]
      refine ⟨⟨⟨by decide, nofun⟩, by rw [hoverlap]⟩, ?_, ?_⟩
      · rw [hoverlap, hframes]; omega
      · rw [hoverlap, hframes]; omega
  refine ⟨hwhole, htell, haccepts, present_eq_error hwhole haccepts ⟨_, rfl⟩ ?_⟩
  have htotal : endless.total = 2 * (Text.unwritable - 1) := by
    simp only [Storyboard.total, endless, List.map_cons, List.map_nil, List.sum_cons, List.sum_nil,
      List.tail_cons, hframes, hoverlap]
    omega
  rw [htotal]
  omega

end Director

end Showreel
