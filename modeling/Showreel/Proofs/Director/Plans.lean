import Mathlib.Data.List.Chain
import Showreel.Proofs.Director.Names
import Showreel.Proofs.Storyboard.Board
import Showreel.Proofs.Timeline.Refused

/-!
# Plans that a director accepts

A plan is accepted if every entry names a scene that lasts at least one frame, the way into every
entry but the first is known and fits between its two neighbours, and the rate of frames is
positive. What an accepted plan becomes is told entry by entry. The report of it is a matter of its
own, since it shows numbers that no check has looked at.
-/

namespace Showreel

open Arith (ofInt)

/-! ## Entries -/

namespace SceneEntry

/-- The scene that an entry names. -/
def scene? (e : SceneEntry) : Option Scene := e.sceneId.name?.bind Scene.ofName?

/-- The easing that an entry names. -/
def easing? (e : SceneEntry) : Option Easing := e.easing.name?.bind Easing.ofName?

/-- The frames for which an entry is shown: as many as it asks for, or as the scene has itself. -/
def frames (e : SceneEntry) : Int :=
  match e.duration with
  | .int n => n
  | _ => e.scene?.elim 0 Scene.length

/-- The frames by which an entry overlaps the one in front of it. -/
def overlap (e : SceneEntry) : Int :=
  match e.transitionDuration with
  | .int d => d
  | _ => 0

/-- An entry whose lengths are integers, its own one perhaps left to the scene. -/
structure IsWhole (e : SceneEntry) : Prop where
  duration : e.duration = .null ∨ ∃ n : Int, e.duration = .int n
  transition : ∃ d : Int, e.transitionDuration = .int d

/-- An entry whose names and numbers can be told in messages. -/
structure IsTellable (e : SceneEntry) : Prop where
  sceneId : e.sceneId.IsTellable
  easing : e.easing.IsTellable
  spring : e.spring.IsTellable
  frames : e.frames.natAbs < Text.unwritable
  overlap : e.overlap.natAbs < Text.unwritable

variable {e : SceneEntry}

theorem IsWhole.lengthOf_eq (h : e.IsWhole) {scene : Scene} (hscene : e.scene? = some scene) :
    Director.lengthOf e scene = .int e.frames := by
  rcases h.duration with hnull | ⟨n, hn⟩
  · simp [Director.lengthOf, frames, hnull, hscene]
  · simp [Director.lengthOf, frames, hn]

theorem IsWhole.transitionDuration_eq (h : e.IsWhole) : e.transitionDuration = .int e.overlap := by
  obtain ⟨d, hd⟩ := h.transition
  simp [overlap, hd]

end SceneEntry

/-- A plan whose rate of frames and whose lengths are integers. -/
structure Storyboard.IsWhole (plan : Storyboard) : Prop where
  fps : ∃ fps : Int, plan.fps = .int fps
  entries : ∀ e ∈ plan.scenes, e.IsWhole

/-- A scene on its own stands in its plan with its length, a whole number of frames. -/
theorem Template.isWhole_of_single {scene : Scene} {configuration : Document} {plan : Storyboard}
    (h : Template.single scene configuration = .ok plan) : ∀ e ∈ plan.scenes, e.IsWhole := by
  obtain ⟨empty, hempty, h⟩ := bind_eq_ok_iff.mp h
  obtain ⟨video, -, hempty⟩ := bind_eq_ok_iff.mp hempty
  obtain ⟨fps, -, hempty⟩ := bind_eq_ok_iff.mp hempty
  obtain ⟨width, -, hempty⟩ := bind_eq_ok_iff.mp hempty
  obtain ⟨height, -, hempty⟩ := bind_eq_ok_iff.mp hempty
  cases hempty
  cases h
  intro e he
  rw [Storyboard.addScene_eq] at he
  obtain rfl := List.mem_singleton.mp he
  exact ⟨.inr ⟨_, rfl⟩, _, rfl⟩

/-- The frames of all entries together less all overlaps. -/
def Storyboard.total (plan : Storyboard) : Int :=
  (plan.scenes.map SceneEntry.frames).sum - (plan.scenes.tail.map SceneEntry.overlap).sum

/-- A plan whose names and numbers can be told in messages. -/
structure Storyboard.IsTellable (plan : Storyboard) : Prop where
  compositionId : ∃ s, plan.compositionId.shown = .ok s
  fps : ∃ s, plan.fps.shown = .ok s
  entries : ∀ e ∈ plan.scenes, e.IsTellable

namespace Director

variable (d : Director) {stage : Stage Document} {e : SceneEntry}

/-- The spring that an entry names, among those of the director. -/
def spring? (e : SceneEntry) : Option (Spring.Config Document) :=
  e.spring.name?.bind d.springs.find?

/-- The segment that an entry becomes. -/
def Places (stage : Stage Document) (e : SceneEntry) (s : Segment Document) : Prop :=
  ∃ scene, e.scene? = some scene ∧ s = {
    length := .int e.frames, scene := scene.state stage d.threshold, name := e.sceneId }

/-- The transition that the way into an entry becomes. -/
def Leads (e : SceneEntry) (t : Transition Document) : Prop :=
  ∃ easing, e.easing? = some easing ∧
    match e.timing with
    | .linear => t = {
        length := .int e.overlap, presentation := .known e.transitionIn, easing := easing.apply }
    | .spring => ∃ config, d.spring? e = some config ∧ t = {
        length := .int e.overlap, presentation := .known e.transitionIn
        easing := Easing.linear.apply, spring := some config }

/-- The easing of an entry is known, and its spring if that is used. -/
def KnowsWay (e : SceneEntry) : Prop :=
  e.easing?.isSome ∧ (e.timing = .spring → (d.spring? e).isSome)

theorem exists_leads_iff : (∃ t, d.Leads e t) ↔ d.KnowsWay e := by
  unfold Leads KnowsWay
  cases heasing : e.easing? with
  | none => simp
  | some easing =>
    cases htiming : e.timing with
    | linear => simp
    | spring =>
      cases hspring : d.spring? e with
      | none => simp
      | some config => simp

theorem Places.eq_length {s : Segment Document} (h : d.Places stage e s) :
    s.length = .int e.frames := by
  obtain ⟨scene, -, rfl⟩ := h
  rfl

theorem Leads.eq_length {t : Transition Document} (h : d.Leads e t) :
    t.length = .int e.overlap := by
  obtain ⟨easing, -, h⟩ := h
  cases htiming : e.timing with
  | linear =>
    rw [htiming] at h
    rw [h]
  | spring =>
    rw [htiming] at h
    obtain ⟨config, -, rfl⟩ := h
    rfl

theorem Places.isWhole {s : Segment Document} (h : d.Places stage e s) (hpos : 0 < e.frames) :
    (Item.segment s).IsWhole :=
  Item.isWhole_segment_iff.mpr ⟨_, hpos, h.eq_length⟩

theorem Leads.isWhole {t : Transition Document} (h : d.Leads e t) (hnonneg : 0 ≤ e.overlap) :
    (Item.transition t).IsWhole :=
  Item.isWhole_transition_iff.mpr ⟨_, hnonneg, h.eq_length⟩

/-! ## Entry by entry -/

theorem segment_eq_ok_iff (he : e.IsWhole) {scene : Scene} (hscene : e.scene? = some scene)
    {s : Segment Document} : d.segment stage e scene = .ok s ↔
      0 < e.frames ∧ d.Places stage e s := by
  have hplaces : d.Places stage e s ↔ s = {
      length := .int e.frames, scene := scene.state stage d.threshold, name := e.sceneId } := by
    simp [Places, hscene]
  rw [segment, he.lengthOf_eq hscene, hplaces]
  exact Segment.build_eq_ok_iff

theorem opening_eq_ok_iff (he : e.IsWhole) {items : List (Item Document)} :
    d.opening stage e = .ok items ↔
      0 < e.frames ∧ ∃ s, d.Places stage e s ∧ items = [.segment s] := by
  unfold opening
  constructor
  · intro h
    obtain ⟨scene, hscene, h⟩ := bind_eq_ok_iff.mp h
    obtain ⟨s, hs, h⟩ := bind_eq_ok_iff.mp h
    cases h
    obtain ⟨hpos, hplaces⟩ := (d.segment_eq_ok_iff he (Scene.find_eq_ok_iff.mp hscene)).mp hs
    exact ⟨hpos, s, hplaces, rfl⟩
  · rintro ⟨hpos, s, hplaces, rfl⟩
    obtain ⟨scene, hscene, -⟩ := id hplaces
    rw [Scene.find_eq_ok_iff.mpr hscene, ok_bind,
      (d.segment_eq_ok_iff he hscene).mpr ⟨hpos, hplaces⟩]
    rfl

theorem transition_eq_ok_iff (he : e.IsWhole) {t : Transition Document} :
    d.transition e = .ok t ↔ 0 ≤ e.overlap ∧ d.Leads e t := by
  unfold transition Leads
  rw [he.transitionDuration_eq]
  constructor
  · intro h
    obtain ⟨easing, heasing, h⟩ := bind_eq_ok_iff.mp h
    have heasing' := Director.easing_eq_ok_iff.mp heasing
    cases htiming : e.timing with
    | linear =>
      rw [htiming] at h
      obtain ⟨hnonneg, rfl⟩ := Transition.build_eq_ok_iff.mp h
      exact ⟨hnonneg, easing, heasing', rfl⟩
    | spring =>
      rw [htiming] at h
      obtain ⟨config, hconfig, h⟩ := bind_eq_ok_iff.mp h
      obtain ⟨hnonneg, rfl⟩ := Transition.build_eq_ok_iff.mp h
      exact ⟨hnonneg, easing, heasing', config, spring_eq_ok_iff.mp hconfig, rfl⟩
  · rintro ⟨hnonneg, easing, heasing, h⟩
    rw [Director.easing_eq_ok_iff.mpr heasing, ok_bind]
    cases htiming : e.timing with
    | linear =>
      rw [htiming] at h
      exact Transition.build_eq_ok_iff.mpr ⟨hnonneg, h⟩
    | spring =>
      rw [htiming] at h
      obtain ⟨config, hconfig, h⟩ := h
      rw [spring_eq_ok_iff.mpr hconfig]
      exact Transition.build_eq_ok_iff.mpr ⟨hnonneg, h⟩

theorem continuation_eq_ok_iff (he : e.IsWhole) {items : List (Item Document)} :
    d.continuation stage e = .ok items ↔ (0 ≤ e.overlap ∧ 0 < e.frames) ∧
      ∃ t s, d.Leads e t ∧ d.Places stage e s ∧ items = [.transition t, .segment s] := by
  unfold continuation
  constructor
  · intro h
    obtain ⟨scene, hscene, h⟩ := bind_eq_ok_iff.mp h
    obtain ⟨t, ht, h⟩ := bind_eq_ok_iff.mp h
    obtain ⟨s, hs, h⟩ := bind_eq_ok_iff.mp h
    cases h
    obtain ⟨hnonneg, hleads⟩ := (d.transition_eq_ok_iff he).mp ht
    obtain ⟨hpos, hplaces⟩ := (d.segment_eq_ok_iff he (Scene.find_eq_ok_iff.mp hscene)).mp hs
    exact ⟨⟨hnonneg, hpos⟩, t, s, hleads, hplaces, rfl⟩
  · rintro ⟨⟨hnonneg, hpos⟩, t, s, hleads, hplaces, rfl⟩
    obtain ⟨scene, hscene, -⟩ := id hplaces
    rw [Scene.find_eq_ok_iff.mpr hscene, ok_bind,
      (d.transition_eq_ok_iff he).mpr ⟨hnonneg, hleads⟩, ok_bind,
      (d.segment_eq_ok_iff he hscene).mpr ⟨hpos, hplaces⟩]
    rfl

/-! ## Whole plans -/

/-- The way into an entry is known and fits between it and the entry in front of it. -/
def Joins (before after : SceneEntry) : Prop :=
  (d.KnowsWay after ∧ 0 ≤ after.overlap) ∧
    after.overlap ≤ before.frames ∧ after.overlap ≤ after.frames

theorem isChain_joins_iff (first : SceneEntry) (others : List SceneEntry) :
    (first :: others).IsChain d.Joins ↔ (∀ e ∈ others, d.KnowsWay e ∧ 0 ≤ e.overlap) ∧
      Timeline.Fits ((first :: others).map SceneEntry.frames) (others.map SceneEntry.overlap) := by
  induction others generalizing first with
  | nil => simp [Timeline.fits_nil]
  | cons next others ih =>
    simp only [List.isChain_cons_cons, ih, List.map_cons, Timeline.fits_cons,
      List.forall_mem_cons, Joins]
    tauto

section Lists

variable {first : SceneEntry} {others : List SceneEntry}

theorem map_length_of_places {entries : List SceneEntry} {segments : List (Segment Document)}
    (h : List.Forall₂ (d.Places stage) entries segments) :
    segments.map Segment.length = (entries.map SceneEntry.frames).map ofInt := by
  induction h with
  | nil => rfl
  | cons hs _ ih => simp only [List.map_cons, ih, hs.eq_length]; rfl

theorem map_length_of_leads {entries : List SceneEntry} {transitions : List (Transition Document)}
    (h : List.Forall₂ d.Leads entries transitions) :
    transitions.map Transition.length = (entries.map SceneEntry.overlap).map ofInt := by
  induction h with
  | nil => rfl
  | cons ht _ ih => simp only [List.map_cons, ih, ht.eq_length]; rfl

/-- Every entry behind the first adds a transition and a segment. -/
theorem alternates_of_pairs {Leading : SceneEntry → Transition Document → Prop}
    {Placed : SceneEntry → Segment Document → Prop}
    (hpair : ∀ e ∈ others, ∀ items, d.continuation stage e = .ok items →
      ∃ t s, Leading e t ∧ Placed e s ∧ items = [.transition t, .segment s])
    {further : List (List (Item Document))}
    (h : others.mapM (d.continuation stage) = .ok further) (s : Segment Document) :
    ∃ segments transitions, List.Forall₂ Placed others segments ∧
      List.Forall₂ Leading others transitions ∧
      Timeline.Alternates (.segment s :: further.flatten) (s :: segments) transitions := by
  induction mapM_eq_ok_iff.mp h generalizing s with
  | nil => exact ⟨[], [], .nil, .nil, .last s⟩
  | @cons e items others further he hrest ih =>
    rw [List.forall_mem_cons] at hpair
    obtain ⟨t, s', hleading, hplaced, rfl⟩ := hpair.1 items he
    obtain ⟨segments, transitions, hsegments, htransitions, halt⟩ :=
      ih hpair.2 (mapM_eq_ok_iff.mpr hrest) s'
    exact ⟨s' :: segments, t :: transitions, .cons hplaced hsegments, .cons hleading htransitions,
      .cons s t halt⟩

theorem alternates_of_continuations (hothers : ∀ e ∈ others, e.IsWhole)
    {further : List (List (Item Document))}
    (h : others.mapM (d.continuation stage) = .ok further) (s : Segment Document) :
    ∃ segments transitions, List.Forall₂ (d.Places stage) others segments ∧
      List.Forall₂ d.Leads others transitions ∧ (∀ e ∈ others, 0 ≤ e.overlap ∧ 0 < e.frames) ∧
      Timeline.Alternates (.segment s :: further.flatten) (s :: segments) transitions := by
  have hpair : ∀ e ∈ others, ∀ items, d.continuation stage e = .ok items →
      ∃ t s, d.Leads e t ∧ ((0 ≤ e.overlap ∧ 0 < e.frames) ∧ d.Places stage e s) ∧
        items = [.transition t, .segment s] := by
    intro e he items hitems
    obtain ⟨hbounds, t, s', hleads, hplaces, rfl⟩ :=
      (d.continuation_eq_ok_iff (hothers e he)).mp hitems
    exact ⟨t, s', hleads, ⟨hbounds, hplaces⟩, rfl⟩
  obtain ⟨segments, transitions, hsegments, htransitions, halt⟩ :=
    d.alternates_of_pairs hpair h s
  obtain ⟨hbounds, hsegments⟩ := (List.forall₂_and_left _ _).mp hsegments
  exact ⟨segments, transitions, hsegments, htransitions, hbounds, halt⟩

/-- What the entries of a plan became can be put into a timeline. -/
theorem items_isWhole (hfirst : first.IsWhole) (hothers : ∀ e ∈ others, e.IsWhole)
    {items : List (Item Document)} {further : List (List (Item Document))}
    (hitems : d.opening stage first = .ok items)
    (hfurther : others.mapM (d.continuation stage) = .ok further) :
    ∀ item ∈ items ++ further.flatten, item.IsWhole := by
  obtain ⟨hpos, s, hs, rfl⟩ := (d.opening_eq_ok_iff hfirst).mp hitems
  intro item hitem
  rcases List.mem_append.mp hitem with hitem | hitem
  · rw [List.mem_singleton.mp hitem]
    exact hs.isWhole d hpos
  · obtain ⟨pair, hpair, hitem⟩ := List.mem_flatten.mp hitem
    obtain ⟨e, he, hcontinuation⟩ := exists_of_mem_mapM hfurther hpair
    obtain ⟨⟨hnonneg, hpos⟩, t, s, hleads, hplaces, rfl⟩ :=
      (d.continuation_eq_ok_iff (hothers e he)).mp hcontinuation
    rcases List.mem_pair.mp hitem with rfl | rfl
    · exact hleads.isWhole d hnonneg
    · exact hplaces.isWhole d hpos

theorem exists_opening_iff (hfirst : first.IsWhole) :
    (∃ items, d.opening stage first = .ok items) ↔ first.scene?.isSome ∧ 0 < first.frames := by
  simp only [d.opening_eq_ok_iff hfirst, Option.isSome_iff_exists]
  constructor
  · rintro ⟨items, hpos, s, ⟨scene, hscene, -⟩, -⟩
    exact ⟨⟨scene, hscene⟩, hpos⟩
  · rintro ⟨⟨scene, hscene⟩, hpos⟩
    exact ⟨_, hpos, _, ⟨scene, hscene, rfl⟩, rfl⟩

theorem exists_continuation_iff (he : e.IsWhole) :
    (∃ items, d.continuation stage e = .ok items) ↔
      (e.scene?.isSome ∧ 0 < e.frames) ∧ d.KnowsWay e ∧ 0 ≤ e.overlap := by
  simp only [d.continuation_eq_ok_iff he, ← d.exists_leads_iff, Option.isSome_iff_exists]
  constructor
  · rintro ⟨items, ⟨hnonneg, hpos⟩, t, s, hleads, ⟨scene, hscene, -⟩, -⟩
    exact ⟨⟨⟨scene, hscene⟩, hpos⟩, ⟨t, hleads⟩, hnonneg⟩
  · rintro ⟨⟨⟨scene, hscene⟩, hpos⟩, ⟨t, hleads⟩, hnonneg⟩
    exact ⟨_, ⟨hnonneg, hpos⟩, t, _, hleads, ⟨scene, hscene, rfl⟩, rfl⟩

/-- What the entries became is a timeline exactly if the rate is positive and all overlaps fit. -/
theorem exists_build_of_entries [Spring.Animated Document] (hfirst : first.IsWhole)
    (hothers : ∀ e ∈ others, e.IsWhole) {items : List (Item Document)}
    {further : List (List (Item Document))} (hitems : d.opening stage first = .ok items)
    (hfurther : others.mapM (d.continuation stage) = .ok further) (fps : Int) (name : Document) :
    (∃ t, Timeline.build (items ++ further.flatten) (.int fps) name = .ok t) ↔
      0 < fps ∧ Timeline.Fits ((first :: others).map SceneEntry.frames)
        (others.map SceneEntry.overlap) := by
  obtain ⟨hpos, s, hs, rfl⟩ := (d.opening_eq_ok_iff hfirst).mp hitems
  obtain ⟨segments, transitions, hsegments, htransitions, hbounds, halt⟩ :=
    d.alternates_of_continuations hothers hfurther s
  have hlengths := d.map_length_of_places (.cons hs hsegments)
  have hoverlaps := d.map_length_of_leads htransitions
  refine Timeline.exists_build_iff halt hlengths hoverlaps ?_ ?_ fps name
  · rw [List.forall_mem_map, List.forall_mem_cons]
    exact ⟨hpos, fun e he => (hbounds e he).2⟩
  · rw [List.forall_mem_map]
    exact fun e he => (hbounds e he).1

end Lists

/-- A plan that a director accepts. -/
structure Accepts (plan : Storyboard) : Prop where
  scenes_ne_nil : plan.scenes ≠ []
  fps_pos : ∃ fps : Int, plan.fps = .int fps ∧ 0 < fps
  entries : ∀ e ∈ plan.scenes, e.scene?.isSome ∧ 0 < e.frames
  joins : plan.scenes.IsChain d.Joins

/-- A timeline that shows every entry of a plan, each behind the way into it. -/
structure Realizes (plan : Storyboard) (t : Timeline Document) : Prop where
  segments : List.Forall₂ (d.Places (Stage.ofRate plan.fps)) plan.scenes t.segments
  transitions : List.Forall₂ d.Leads plan.scenes.tail t.transitions
  fps : t.fps = plan.fps
  name : t.name = plan.compositionId

section Plans

variable {d} {plan : Storyboard} {memory : Spring.Memory} {t : Timeline Document}

theorem timeline_of_cons {first : SceneEntry} {others : List SceneEntry}
    (hscenes : plan.scenes = first :: others) :
    d.timeline plan memory = (do
      let items ← d.opening (Stage.ofRate plan.fps) first
      let further ← others.mapM (d.continuation (Stage.ofRate plan.fps))
      let _ := memory.animated
      Timeline.build (items ++ further.flatten) plan.fps plan.compositionId) := by
  unfold timeline
  rw [hscenes]

theorem accepts_of_cons {first : SceneEntry} {others : List SceneEntry}
    (hscenes : plan.scenes = first :: others) {fps : Int} (hfps : plan.fps = .int fps) :
    d.Accepts plan ↔ (first.scene?.isSome ∧ 0 < first.frames) ∧
      (∀ e ∈ others, (e.scene?.isSome ∧ 0 < e.frames) ∧ d.KnowsWay e ∧ 0 ≤ e.overlap) ∧
      0 < fps ∧ Timeline.Fits ((first :: others).map SceneEntry.frames)
        (others.map SceneEntry.overlap) := by
  constructor
  · rintro ⟨-, ⟨fps', hfps', hpos⟩, hentries, hjoins⟩
    rw [hscenes, List.forall_mem_cons] at hentries
    rw [hscenes, isChain_joins_iff] at hjoins
    cases hfps.symm.trans hfps'
    exact ⟨hentries.1, fun e he => ⟨hentries.2 e he, hjoins.1 e he⟩, hpos, hjoins.2⟩
  · rintro ⟨hfirst, hothers, hpos, hfits⟩
    refine ⟨by simp [hscenes], ⟨fps, hfps, hpos⟩, ?_, ?_⟩
    · rw [hscenes, List.forall_mem_cons]
      exact ⟨hfirst, fun e he => (hothers e he).1⟩
    · rw [hscenes, isChain_joins_iff]
      exact ⟨fun e he => (hothers e he).2, hfits⟩

/-- A plan becomes a timeline exactly if it is accepted. -/
theorem exists_timeline_iff (hplan : plan.IsWhole) :
    (∃ t, d.timeline plan memory = .ok t) ↔ d.Accepts plan := by
  obtain ⟨fps, hfps⟩ := hplan.fps
  have hwhole := hplan.entries
  cases hscenes : plan.scenes with
  | nil =>
    refine iff_of_false ?_ fun h => h.scenes_ne_nil hscenes
    rintro ⟨t, h⟩
    rw [timeline, hscenes] at h
    exact absurd h (bind_ne_ok fun _ => reject_ne_ok)
  | cons first others =>
    rw [hscenes, List.forall_mem_cons] at hwhole
    let _ := memory.animated
    rw [timeline_of_cons hscenes, accepts_of_cons hscenes hfps]
    constructor
    · rintro ⟨t, h⟩
      obtain ⟨items, hitems, h⟩ := bind_eq_ok_iff.mp h
      obtain ⟨further, hfurther, h⟩ := bind_eq_ok_iff.mp h
      rw [hfps] at h
      refine ⟨(d.exists_opening_iff hwhole.1).mp ⟨items, hitems⟩, fun e he => ?_,
        (d.exists_build_of_entries hwhole.1 hwhole.2 hitems hfurther fps _).mp ⟨t, h⟩⟩
      exact (d.exists_continuation_iff (hwhole.2 e he)).mp
        (exists_mapM_eq_ok_iff.mp ⟨further, hfurther⟩ e he)
    · rintro ⟨hfirst, hothers, hbounds⟩
      obtain ⟨items, hitems⟩ := (d.exists_opening_iff hwhole.1).mpr hfirst
      obtain ⟨further, hfurther⟩ := exists_mapM_eq_ok_iff.mpr fun e he =>
        (d.exists_continuation_iff (hwhole.2 e he)).mpr (hothers e he)
      rw [hitems, ok_bind, hfurther, ok_bind, hfps]
      exact (d.exists_build_of_entries hwhole.1 hwhole.2 hitems hfurther fps _).mpr hbounds

/-- All that was made on the way to a timeline. -/
theorem steps_of_timeline (h : d.timeline plan memory = .ok t) :
    ∃ first others items further, plan.scenes = first :: others ∧
      d.opening (Stage.ofRate plan.fps) first = .ok items ∧
      others.mapM (d.continuation (Stage.ofRate plan.fps)) = .ok further ∧
      @Timeline.build _ _ memory.animated (items ++ further.flatten) plan.fps plan.compositionId =
        .ok t := by
  cases hscenes : plan.scenes with
  | nil =>
    rw [timeline, hscenes] at h
    exact absurd h (bind_ne_ok fun _ => reject_ne_ok)
  | cons first others =>
    rw [timeline_of_cons hscenes] at h
    obtain ⟨items, hitems, h⟩ := bind_eq_ok_iff.mp h
    obtain ⟨further, hfurther, h⟩ := bind_eq_ok_iff.mp h
    exact ⟨first, others, items, further, rfl, hitems, hfurther, h⟩

/-- A timeline shows the plan that it was made of. -/
theorem realizes_of_entries (hwhole : ∀ e ∈ plan.scenes, e.IsWhole)
    (h : d.timeline plan memory = .ok t) : d.Realizes plan t := by
  obtain ⟨first, others, items, further, hscenes, hitems, hfurther, h⟩ := steps_of_timeline h
  rw [hscenes, List.forall_mem_cons] at hwhole
  let _ := memory.animated
  obtain ⟨-, s, hs, rfl⟩ := (d.opening_eq_ok_iff hwhole.1).mp hitems
  obtain ⟨segments, transitions, hsegments, htransitions, -, halt⟩ :=
    d.alternates_of_continuations hwhole.2 hfurther s
  obtain ⟨-, halt', -, -, -, ⟨hfps, hname⟩, -⟩ := Timeline.steps_of_build h
  obtain ⟨hsegments', htransitions'⟩ := halt'.unique halt
  refine ⟨?_, ?_, hfps, hname⟩
  · rw [hscenes, hsegments']
    exact .cons hs hsegments
  · rw [hscenes, htransitions']
    exact htransitions

theorem realizes_of_timeline (hplan : plan.IsWhole) (h : d.timeline plan memory = .ok t) :
    d.Realizes plan t :=
  realizes_of_entries hplan.entries h

/-- The timeline of a plan follows a layout, and the springs of its transitions move by the
memory. -/
theorem follows_of_timeline (hwhole : ∀ e ∈ plan.scenes, e.IsWhole)
    (h : d.timeline plan memory = .ok t) :
    ∃ l, t.Follows l ∧
      t.drives = t.transitions.map fun tr => @Transition.drive _ _ memory.animated tr t.fps := by
  obtain ⟨first, others, items, further, hscenes, hitems, hfurther, h⟩ := steps_of_timeline h
  rw [hscenes, List.forall_mem_cons] at hwhole
  let _ := memory.animated
  obtain ⟨l, hl, -, -, hfps, -, hdrives⟩ :=
    Timeline.follows_of_build (d.items_isWhole hwhole.1 hwhole.2 hitems hfurther) h
  exact ⟨l, hl, by rw [hfps]; exact hdrives⟩

theorem Realizes.duration_eq (h : d.Realizes plan t) : t.duration = .ok (.int plan.total) := by
  have hlengths := d.map_length_of_places h.segments
  have hoverlaps := d.map_length_of_leads h.transitions
  rw [Timeline.duration, hlengths, hoverlaps, Arith.total_ofInt, ok_bind, Arith.total_ofInt,
    ok_bind]
  rfl

end Plans

end Director

end Showreel
