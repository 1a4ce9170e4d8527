import Showreel.Proofs.Director.Plans
import Showreel.Sampling

/-!
# Plans with lengths that are no integers

The checks on the way to a timeline look at the sizes of lengths only, so a double may pass for one.
A single one makes the whole last a double, and then nothing can be counted or sampled: a double is
never taken for a number of frames. The way into the first entry is not among the lengths that
count.
-/

namespace Showreel

open Arith (ofInt)

/-! ## Sums with doubles -/

namespace Number

def IsDouble (a : Number) : Prop := ∃ x, a = .double x

/-- Numbers combine to a double exactly if one of them is a double. -/
theorem combine_isDouble_iff {exact : Int → Int → Int} {rounded : Float → Float → Float}
    {a b c : Number} (h : combine exact rounded a b = .ok c) :
    c.IsDouble ↔ a.IsDouble ∨ b.IsDouble := by
  cases a with
  | int m =>
    cases b with
    | int n =>
      cases h
      simp [IsDouble]
    | double y =>
      obtain ⟨_, -, h⟩ := bind_eq_ok_iff.mp h
      cases h
      simp [IsDouble]
  | double x =>
    cases b with
    | int n =>
      obtain ⟨_, -, h⟩ := bind_eq_ok_iff.mp h
      cases h
      simp [IsDouble]
    | double y =>
      cases h
      simp [IsDouble]

end Number

namespace Document

def IsDouble (v : Document) : Prop := ∃ x, v = .double x

theorem isDouble_iff {v : Document} {a : Number} (h : v.number? = some a) :
    v.IsDouble ↔ a.IsDouble := by
  cases v with
  | flag b =>
    cases h
    simp [IsDouble, Number.IsDouble]
  | int n =>
    cases h
    simp [IsDouble, Number.IsDouble]
  | double x =>
    cases h
    simp [IsDouble, Number.IsDouble]
  | _ => cases h

theorem document_isDouble_iff {a : Number} : a.document.IsDouble ↔ a.IsDouble := by
  cases a with
  | int n => exact isDouble_iff rfl
  | double x => exact isDouble_iff rfl

theorem calculate_isDouble_iff {exact : Int → Int → Int} {rounded : Float → Float → Float}
    {v w u : Document} (h : calculate (Number.combine exact rounded) v w = .ok u) :
    u.IsDouble ↔ v.IsDouble ∨ w.IsDouble := by
  unfold calculate at h
  split at h
  case h_1 a b ha hb =>
    cases hc : Number.combine exact rounded a b with
    | error fault =>
      rw [hc] at h
      cases h
    | ok c =>
      rw [hc] at h
      cases h
      rw [document_isDouble_iff, Number.combine_isDouble_iff hc, isDouble_iff ha, isDouble_iff hb]
  case h_2 => cases h

/-- Texts and lists are joined to what is no double either. -/
theorem add_isDouble_iff {v w u : Document} (h : v.add w = .ok u) :
    u.IsDouble ↔ v.IsDouble ∨ w.IsDouble := by
  unfold add at h
  split at h
  case h_1 =>
    cases h
    simp [IsDouble]
  case h_2 =>
    cases h
    simp [IsDouble]
  case h_3 => exact calculate_isDouble_iff h

theorem sub_isDouble_iff {v w u : Document} (h : v.sub w = .ok u) :
    u.IsDouble ↔ v.IsDouble ∨ w.IsDouble :=
  calculate_isDouble_iff h

theorem foldlM_add_isDouble_iff {vs : List Document} {v u : Document}
    (h : vs.foldlM Arith.add v = .ok u) : u.IsDouble ↔ v.IsDouble ∨ ∃ w ∈ vs, w.IsDouble := by
  induction vs generalizing v with
  | nil =>
    cases h
    simp
  | cons w vs ih =>
    rw [List.foldlM_cons] at h
    obtain ⟨next, hnext, h⟩ := bind_eq_ok_iff.mp h
    rw [ih h, add_isDouble_iff hnext, or_assoc]
    simp

theorem total_isDouble_iff {vs : List Document} {u : Document} (h : Arith.total vs = .ok u) :
    u.IsDouble ↔ ∃ w ∈ vs, w.IsDouble := by
  rw [foldlM_add_isDouble_iff h]
  exact or_iff_right (by simp [IsDouble, Arith.ofInt])

theorem IsDouble.index_eq {v : Document} (h : v.IsDouble) : v.index = .error .wrongType := by
  obtain ⟨x, rfl⟩ := h
  rfl

end Document

namespace Timeline

variable {t : Timeline Document} {v : Document}

theorem duration_isDouble_iff (h : t.duration = .ok v) : v.IsDouble ↔
    (∃ s ∈ t.segments, s.length.IsDouble) ∨ ∃ tr ∈ t.transitions, tr.length.IsDouble := by
  obtain ⟨shown, hshown, h⟩ := bind_eq_ok_iff.mp h
  obtain ⟨hidden, hhidden, h⟩ := bind_eq_ok_iff.mp h
  rw [Document.sub_isDouble_iff h, Document.total_isDouble_iff hshown,
    Document.total_isDouble_iff hhidden]
  simp only [List.mem_map, exists_exists_and_eq_and]

/-- A timeline that lasts a double has no frames that could be counted or sampled. -/
theorem not_sampled_of_isDouble (h : t.duration = .ok v) (hv : v.IsDouble) :
    t.frameCount = .error .wrongType ∧
      ∀ k : Int, t.sampleFrames (.int 0) none (.int k) = .error .wrongType := by
  constructor
  · rw [frameCount, h, ok_bind, hv.index_eq, error_bind]
  · intro k
    rw [sampleFrames, h]
    change (do
      let places ← Places.ofRange (← (Document.int 0).index) (← v.index) (← (Document.int k).index)
      places.mapM fun place => t.frameAt (.int place)) = _
    rw [hv.index_eq]
    rfl

end Timeline

/-! ## Lengths of plans -/

/-- A length that counts in a plan is a double. -/
def Storyboard.HasDouble (plan : Storyboard) : Prop :=
  (∃ e ∈ plan.scenes, e.duration.IsDouble) ∨ ∃ e ∈ plan.scenes.tail, e.transitionDuration.IsDouble

/-- All lengths that count in a plan are integers, unless they are left to the scenes. -/
structure Storyboard.HasWholeLengths (plan : Storyboard) : Prop where
  durations : ∀ e ∈ plan.scenes, e.duration = .null ∨ ∃ n : Int, e.duration = .int n
  transitions : ∀ e ∈ plan.scenes.tail, ∃ n : Int, e.transitionDuration = .int n

namespace Director

variable {d : Director} {stage : Stage Document} {e : SceneEntry} {plan : Storyboard}
  {memory : Spring.Memory} {t : Timeline Document}

/-- The length of a scene itself is an integer. -/
theorem lengthOf_isDouble_iff (e : SceneEntry) (scene : Scene) :
    (lengthOf e scene).IsDouble ↔ e.duration.IsDouble := by
  unfold lengthOf
  split
  case h_1 hnull => simp [hnull, Document.IsDouble]
  case h_2 => rfl

theorem length_of_segment {scene : Scene} {s : Segment Document}
    (h : d.segment stage e scene = .ok s) : s.length.IsDouble ↔ e.duration.IsDouble := by
  obtain ⟨-, rfl⟩ := Segment.build_eq_ok_iff_le.mp h
  exact lengthOf_isDouble_iff e scene

theorem length_of_transition {tr : Transition Document} (h : d.transition e = .ok tr) :
    tr.length = e.transitionDuration := by
  obtain ⟨easing, -, h⟩ := bind_eq_ok_iff.mp h
  cases htiming : e.timing with
  | linear =>
    rw [htiming] at h
    obtain ⟨-, rfl⟩ := Transition.build_eq_ok_iff_lt.mp h
    rfl
  | spring =>
    rw [htiming] at h
    obtain ⟨config, -, h⟩ := bind_eq_ok_iff.mp h
    obtain ⟨-, rfl⟩ := Transition.build_eq_ok_iff_lt.mp h
    rfl

/-- A timeline has doubles for lengths where doubles stand in its plan. -/
theorem lengths_of_timeline (h : d.timeline plan memory = .ok t) :
    List.Forall₂ (fun e s => s.length.IsDouble ↔ e.duration.IsDouble) plan.scenes t.segments ∧
      List.Forall₂ (fun e tr => tr.length.IsDouble ↔ e.transitionDuration.IsDouble)
        plan.scenes.tail t.transitions := by
  obtain ⟨first, others, items, further, hscenes, hitems, hfurther, h⟩ := steps_of_timeline h
  obtain ⟨scene, -, hitems⟩ := bind_eq_ok_iff.mp hitems
  obtain ⟨s, hs, hitems⟩ := bind_eq_ok_iff.mp hitems
  cases hitems
  have hpair : ∀ e ∈ others, ∀ items, d.continuation (Stage.ofRate plan.fps) e = .ok items →
      ∃ tr s, (tr.length.IsDouble ↔ e.transitionDuration.IsDouble) ∧
        (s.length.IsDouble ↔ e.duration.IsDouble) ∧ items = [.transition tr, .segment s] := by
    intro e _ items hitems
    obtain ⟨scene, -, hitems⟩ := bind_eq_ok_iff.mp hitems
    obtain ⟨tr, htr, hitems⟩ := bind_eq_ok_iff.mp hitems
    obtain ⟨s, hs, hitems⟩ := bind_eq_ok_iff.mp hitems
    cases hitems
    exact ⟨tr, s, by rw [length_of_transition htr], length_of_segment hs, rfl⟩
  obtain ⟨segments, transitions, hsegments, htransitions, halt⟩ :=
    d.alternates_of_pairs hpair hfurther s
  let _ := memory.animated
  obtain ⟨-, halt', -⟩ := Timeline.steps_of_build h
  obtain ⟨hsegments', htransitions'⟩ := halt'.unique halt
  rw [hscenes, hsegments', htransitions']
  exact ⟨.cons (length_of_segment hs) hsegments, htransitions⟩

/-- A plan that becomes a timeline lasts a double exactly if a double is among its lengths. -/
theorem duration_isDouble_iff_hasDouble (h : d.timeline plan memory = .ok t) {v : Document}
    (hv : t.duration = .ok v) : v.IsDouble ↔ plan.HasDouble := by
  obtain ⟨hsegments, htransitions⟩ := lengths_of_timeline h
  rw [Timeline.duration_isDouble_iff hv, Storyboard.HasDouble, exists_iff_of_forall₂ hsegments,
    exists_iff_of_forall₂ htransitions]

end Director

end Showreel
