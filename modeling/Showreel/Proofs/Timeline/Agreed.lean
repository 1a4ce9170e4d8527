import Showreel.Proofs.Fallible
import Showreel.Timeline.Frame

/-!
# Timelines of scenes that agree

Two timelines are made alike, from the same lengths, names and transitions, but the scenes of the
one only agree with those of the other: they show what is related in some way. Neither the checks of
a timeline nor what it computes of windows and effects looks at a scene, so both are made or refused
together, and their frames are equal but for the states, which are related.
-/

namespace Showreel

section Relations

variable {α : Type} (R : Snapshot α → Snapshot α → Prop)

structure Segment.Agrees (s s' : Segment α) : Prop where
  length : s.length = s'.length
  name : s.name = s'.name
  scene : ∀ frame, Agree R (s.scene frame) (s'.scene frame)

inductive Item.Agrees : Item α → Item α → Prop
  | segment {s s' : Segment α} (h : s.Agrees R s') : Agrees (.segment s) (.segment s')
  | transition (t : Transition α) : Agrees (.transition t) (.transition t)
  | other (kind : String) : Agrees (.other kind) (.other kind)

structure Timeline.Agrees (t t' : Timeline α) : Prop where
  fps : t.fps = t'.fps
  name : t.name = t'.name
  segments : List.Forall₂ (Segment.Agrees R) t.segments t'.segments
  transitions : t.transitions = t'.transitions
  starts : t.starts = t'.starts
  ends : t.ends = t'.ends
  drives : t.drives = t'.drives

/-- Layers that are equal but for their states, which are related. -/
structure Layer.Agrees (layer layer' : Layer α) : Prop where
  index : layer.index = layer'.index
  name : layer.name = layer'.name
  localFrame : layer.localFrame = layer'.localFrame
  effect : layer.effect = layer'.effect
  state : R layer.state layer'.state

/-- Frames that are equal but for the states of their layers, which are related. -/
structure ComposedFrame.Agrees (frame frame' : ComposedFrame α) : Prop where
  globalFrame : frame.globalFrame = frame'.globalFrame
  layers : List.Forall₂ (Layer.Agrees R) frame.layers frame'.layers

end Relations

variable {α : Type} {R : Snapshot α → Snapshot α → Prop}

theorem Segment.build_agree [Arith α] {scene scene' : α → Except Fault (Snapshot α)}
    (h : ∀ frame, Agree R (scene frame) (scene' frame)) (length : α) (name : Document) :
    Agree (Segment.Agrees R) (Segment.build length scene name)
      (Segment.build length scene' name) := by
  unfold Segment.build
  refine .same_bind fun short => .ite ?_ (.ok ⟨rfl, rfl, h⟩)
  exact .same_bind fun _ => .same_bind fun _ => .error _

namespace Timeline

/-! ## Making timelines -/

/-- Segments that agree, with the same transitions. -/
def PartsAgree (R : Snapshot α → Snapshot α → Prop)
    (parts parts' : List (Segment α) × List (Transition α)) : Prop :=
  List.Forall₂ (Segment.Agrees R) parts.1 parts'.1 ∧ parts.2 = parts'.2

variable {items items' : List (Item α)} {segments segments' : List (Segment α)}

/-- Items that agree are taken apart at any place, one sort after the other. -/
theorem split_agree_at (h : List.Forall₂ (Item.Agrees R) items items') (position : Nat) :
    Agree (PartsAgree R) (splitSegment position items) (splitSegment position items') ∧
      Agree (PartsAgree R) (splitTransition position items)
        (splitTransition position items') := by
  induction h generalizing position with
  | nil => exact ⟨.ok ⟨.nil, rfl⟩, .ok ⟨.nil, rfl⟩⟩
  | @cons item item' items items' hitem hrest ih =>
    obtain ⟨ihSegment, ihTransition⟩ := ih (position + 1)
    cases hitem with
    | segment hs =>
      refine ⟨?_, .error _⟩
      change Agree _ (splitTransition (position + 1) items >>= _)
        (splitTransition (position + 1) items' >>= _)
      exact ihTransition.bind fun _ _ hparts => .ok ⟨.cons hs hparts.1, hparts.2⟩
    | transition t =>
      refine ⟨.error _, ?_⟩
      change Agree _ (splitSegment (position + 1) items >>= _)
        (splitSegment (position + 1) items' >>= _)
      exact ihSegment.bind fun _ _ hparts => .ok ⟨hparts.1, congrArg (t :: ·) hparts.2⟩
    | other kind => exact ⟨.error _, .error _⟩

theorem split_agree (h : List.Forall₂ (Item.Agrees R) items items') :
    Agree (PartsAgree R) (split items) (split items') := by
  have hempty : items.isEmpty = items'.isEmpty := by cases h <;> rfl
  unfold split
  rw [hempty, h.length_eq]
  refine .ite (.error _) ?_
  refine (split_agree_at h 0).1.bind fun parts parts' hparts => ?_
  exact .ite (.error _) (.ok hparts)

theorem map_length_eq_of_agree (h : List.Forall₂ (Segment.Agrees R) segments segments') :
    segments.map Segment.length = segments'.map Segment.length := by
  rw [← List.forall₂_eq_eq_eq, List.forall₂_map_left_iff, List.forall₂_map_right_iff]
  exact h.imp fun _ _ hs => hs.length

variable [Arith α]

theorem checkOverlaps_eq_of_agree (h : List.Forall₂ (Segment.Agrees R) segments segments')
    (ts : List (Transition α)) (index : Nat) :
    checkOverlaps index segments ts = checkOverlaps index segments' ts := by
  induction h generalizing ts index with
  | nil => rfl
  | cons hbefore hrest ih =>
    cases hrest with
    | nil => rfl
    | cons hafter hrest =>
      cases ts with
      | nil => rfl
      | cons t ts =>
        unfold checkOverlaps
        rw [ih ts (index + 1), hbefore.length, hbefore.name, hafter.length, hafter.name]

theorem startsFrom_eq_of_agree (h : List.Forall₂ (Segment.Agrees R) segments segments')
    (ts : List (Transition α)) (start : α) :
    startsFrom start segments ts = startsFrom start segments' ts := by
  induction h generalizing ts start with
  | nil => rfl
  | cons hs _ ih =>
    cases ts with
    | nil => rfl
    | cons t ts =>
      unfold startsFrom
      simp only [hs.length, ih]

theorem endsOf_eq_of_agree (h : List.Forall₂ (Segment.Agrees R) segments segments')
    (starts : List α) : endsOf starts segments = endsOf starts segments' := by
  unfold endsOf
  induction h generalizing starts with
  | nil => rfl
  | cons hs _ ih =>
    cases starts with
    | nil => rfl
    | cons start starts =>
      rw [List.zip_cons_cons, List.zip_cons_cons, List.mapM_cons, List.mapM_cons, ih]
      simp only [hs.length]

/-- Items that agree are made into timelines that agree, or refused for the same reason. -/
theorem build_agree [Spring.Animated α] (h : List.Forall₂ (Item.Agrees R) items items')
    (fps : α) (name : Document) :
    Agree (Timeline.Agrees R) (build items fps name) (build items' fps name) := by
  unfold build
  refine .same_bind fun stopped => .ite (.same_bind fun _ => .error _) ?_
  refine (split_agree h).bind fun parts parts' hparts => ?_
  obtain ⟨segments, transitions⟩ := parts
  obtain ⟨segments', transitions'⟩ := parts'
  obtain ⟨hsegments, rfl⟩ := hparts
  dsimp only
  rw [checkOverlaps_eq_of_agree hsegments, startsFrom_eq_of_agree hsegments]
  refine .same_bind fun _ => .same_bind fun starts => ?_
  rw [endsOf_eq_of_agree hsegments]
  exact .same_bind fun ends => .ok ⟨rfl, rfl, hsegments, rfl, rfl, rfl, rfl⟩

/-! ## Composing frames -/

namespace Agrees

variable {t t' : Timeline α} (h : t.Agrees R t')

include h

theorem duration_eq : t.duration = t'.duration := by
  unfold duration
  rw [map_length_eq_of_agree h.segments, h.transitions]

theorem clampFrame_eq (frame : α) : t.clampFrame frame = t'.clampFrame frame := by
  unfold clampFrame
  rw [h.duration_eq]

theorem activeSegments_eq (frame : α) : t.activeSegments frame = t'.activeSegments frame := by
  unfold activeSegments
  rw [h.starts, h.ends]
  simp only [h.clampFrame_eq]

theorem effectAt_eq (index : Nat) (frame : α) :
    t.effectAt index frame = t'.effectAt index frame := by
  unfold effectAt incomingWindow outgoingWindow
  rw [h.transitions, h.starts, h.drives]

theorem layerAt_agree (frame : α) (index : Nat) :
    Agree (Layer.Agrees R) (t.layerAt frame index) (t'.layerAt frame index) := by
  unfold layerAt
  rw [h.starts, h.effectAt_eq]
  refine (entryAt_agree h.segments index).bind fun s s' hs => ?_
  refine .same_bind fun start => .same_bind fun localFrame => .same_bind fun effect => ?_
  exact (hs.scene localFrame).bind fun _ _ hstate => .ok ⟨rfl, hs.name, rfl, rfl, hstate⟩

theorem frameAt_agree (frame : α) :
    Agree (ComposedFrame.Agrees R) (t.frameAt frame) (t'.frameAt frame) := by
  unfold frameAt
  rw [h.clampFrame_eq]
  refine .same_bind fun clamped => ?_
  rw [h.activeSegments_eq]
  refine .same_bind fun active => ?_
  refine (Agree.mapM ?_).bind fun layers layers' hlayers => .ok ⟨rfl, hlayers⟩
  exact List.forall₂_same.mpr fun index _ => h.layerAt_agree clamped index

end Agrees

end Timeline

end Showreel
