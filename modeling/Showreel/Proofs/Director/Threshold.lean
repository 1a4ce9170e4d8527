import Showreel.Director
import Showreel.Proofs.Arith.Measured
import Showreel.Proofs.Scene.Threshold
import Showreel.Proofs.Timeline.Agreed

/-!
# The threshold for input

The opacity from which views take input is a setting of its own. Two configurations that differ in
nothing else lead to the same springs, to the same plans that are accepted, to the same timelines
and to the same frames, except that fewer views take input where the opacity that is asked for is
higher.
-/

namespace Showreel

/-! ## Thresholds that are numbers -/

namespace Document

/-- The smaller one of two numbers undercuts the other one. -/
theorem undercuts_of_le {a b : Document} {x y : Number} (ha : a.number? = some x)
    (hb : b.number? = some y) (hle : x.le y = true) : Arith.Undercuts a b := by
  intro w
  rw [lt_of_number ha, lt_of_number hb]
  cases w.number? with
  | none => exact .error _
  | some z => exact .ok fun hlt => Number.lt_of_le_of_lt hle hlt

end Document

/-- Configurations that differ at most in the threshold for input, which is `a` in the one and `b`
in the other. -/
structure DifferInThreshold (c c' a b : Document) : Prop where
  others : ∀ key default, key ≠ "interaction" → c.setting key default = c'.setting key default
  interaction : ∃ i i', c.setting "interaction" (.mapping []) = .ok i ∧
    c'.setting "interaction" (.mapping []) = .ok i' ∧
    (∀ key default, key ≠ "opacity_threshold" → i.setting key default = i'.setting key default) ∧
    i.setting "opacity_threshold" CrossFade.defaultThreshold = .ok a ∧
    i'.setting "opacity_threshold" CrossFade.defaultThreshold = .ok b

namespace Director

/-- Directors of configurations that differ at most in the threshold. -/
structure DifferInThreshold (d d' : Director) (a b : Document) : Prop where
  springs : d.springs = d'.springs
  threshold : d.threshold = a
  threshold' : d'.threshold = b

/-- What holds a setting is a mapping, and is not taken for an empty one. -/
theorem orElse_of_setting {c v : Document} {key : String} {default : Document}
    (h : c.setting key default = .ok v) : c.orElse (.mapping []) = c := by
  unfold Document.orElse
  cases c with
  | mapping entries => cases entries <;> rfl
  | _ => cases h

theorem build_agree {c c' a b : Document} (h : Showreel.DifferInThreshold c c' a b) :
    Agree (fun d d' => d.DifferInThreshold d' a b) (build c) (build c') := by
  obtain ⟨i, i', hi, hi', -, ha, hb⟩ := h.interaction
  have hsprings : Spring.Presets.load c = Spring.Presets.load c' := by
    unfold Spring.Presets.load
    rw [h.others _ _ (by decide)]
  unfold build
  simp only [orElse_of_setting hi, orElse_of_setting hi', hsprings, hi, hi', ha, hb, ok_bind]
  exact .same_bind fun springs => .ok ⟨rfl, rfl, rfl⟩

section Differing

variable {d d' : Director} {a b : Document} (h : d.DifferInThreshold d' a b)
  (hab : Arith.Undercuts a b)

include h

theorem transition_eq (entry : SceneEntry) : d.transition entry = d'.transition entry := by
  unfold transition spring
  rw [h.springs]

include hab

theorem segment_agree (stage : Stage Document) (entry : SceneEntry) (scene : Scene) :
    Agree (Segment.Agrees Snapshot.Dominates) (d.segment stage entry scene)
      (d'.segment stage entry scene) := by
  unfold segment
  rw [h.threshold, h.threshold']
  exact Segment.build_agree (fun _ => Scene.state_agree stage hab scene) _ _

theorem opening_agree (stage : Stage Document) (entry : SceneEntry) :
    Agree (List.Forall₂ (Item.Agrees Snapshot.Dominates)) (d.opening stage entry)
      (d'.opening stage entry) := by
  unfold opening
  refine .same_bind fun scene => ?_
  exact (segment_agree h hab stage entry scene).bind fun _ _ hs => .ok (.cons (.segment hs) .nil)

theorem continuation_agree (stage : Stage Document) (entry : SceneEntry) :
    Agree (List.Forall₂ (Item.Agrees Snapshot.Dominates)) (d.continuation stage entry)
      (d'.continuation stage entry) := by
  unfold continuation
  rw [transition_eq h]
  refine .same_bind fun scene => .same_bind fun way => ?_
  refine (segment_agree h hab stage entry scene).bind fun _ _ hs => ?_
  exact .ok (.cons (.transition way) (.cons (.segment hs) .nil))

theorem timeline_agree (plan : Storyboard) (memory : Spring.Memory) :
    Agree (Timeline.Agrees Snapshot.Dominates) (d.timeline plan memory)
      (d'.timeline plan memory) := by
  unfold timeline
  cases plan.scenes with
  | nil => exact .same_bind fun _ => .error _
  | cons first others =>
    have hothers := Agree.mapM (List.forall₂_same.mpr fun entry (_ : entry ∈ others) =>
      continuation_agree h hab (Stage.ofRate plan.fps) entry)
    refine (opening_agree h hab _ first).bind fun items items' hitems => ?_
    refine hothers.bind fun further further' hfurther => ?_
    let _ := memory.animated
    exact Timeline.build_agree (List.rel_append hitems (List.rel_flatten hfurther)) plan.fps
      plan.compositionId

theorem present_agree (plan : Storyboard) (memory : Spring.Memory) :
    Agree (fun made made' => made.1.Agrees Snapshot.Dominates made'.1 ∧ made.2 = made'.2)
      (d.present plan memory) (d'.present plan memory) := by
  unfold present report
  refine (timeline_agree h hab plan memory).bind fun t t' ht => ?_
  rw [ht.duration_eq]
  exact .same_bind fun report => .ok ⟨ht, rfl⟩

end Differing

/-- Under configurations that differ at most in the threshold, the same directors are refused, the
same plans are made into timelines with the same report, and the same frames are composed. They are
equal but for the flags for input; each of these that is set under the higher threshold is set under
the lower one. -/
theorem threshold_only_gates_input {c c' a b : Document} {x y : Number}
    (hc : Showreel.DifferInThreshold c c' a b) (ha : a.number? = some x) (hb : b.number? = some y)
    (hle : x.le y = true) :
    Agree (fun d d' => d.springs = d'.springs ∧ ∀ plan memory,
        Agree (fun made made' => made.1.duration = made'.1.duration ∧ made.2 = made'.2 ∧
            ∀ frame, Agree (fun shown shown' => shown.globalFrame = shown'.globalFrame ∧
                List.Forall₂ (Layer.Agrees Snapshot.Dominates) shown.layers shown'.layers)
              (made.1.frameAt frame) (made'.1.frameAt frame))
          (d.present plan memory) (d'.present plan memory))
      (build c) (build c') := by
  have hab := Document.undercuts_of_le ha hb hle
  refine (build_agree hc).mono fun d d' hd => ⟨hd.springs, fun plan memory => ?_⟩
  refine (present_agree hd hab plan memory).mono fun made made' hmade => ?_
  refine ⟨hmade.1.duration_eq, hmade.2, fun frame => ?_⟩
  exact (hmade.1.frameAt_agree frame).mono fun _ _ hshown => ⟨hshown.globalFrame, hshown.layers⟩

/-- A configuration that asks for nothing but a threshold. -/
def asking (threshold : Document) : Document :=
  .mapping [("interaction", .mapping [("opacity_threshold", threshold)])]

theorem differInThreshold_asking (a b : Document) :
    Showreel.DifferInThreshold (asking a) (asking b) a b where
  others key default hkey := by
    simp [asking, Document.setting, Document.entries, Document.lookup, hkey.symm]
  interaction := by
    refine ⟨_, _, rfl, rfl, fun key default hkey => ?_, rfl, rfl⟩
    simp [Document.setting, Document.entries, Document.lookup, hkey.symm]

/-- The page of the tour still takes input on its way out under the lower threshold, but not under
the higher one. -/
theorem threshold_only_gates_input_fading :
    Showreel.DifferInThreshold (asking (.double 0.1)) (asking (.double 0.9)) (.double 0.1)
        (.double 0.9) ∧
      (Number.double 0.1).le (.double 0.9) = true ∧
      (∃ d d', build (asking (.double 0.1)) = .ok d ∧ build (asking (.double 0.9)) = .ok d' ∧
        ∀ plan memory t report, d.present plan memory = .ok (t, report) →
          ∃ t', d'.present plan memory = .ok (t', report) ∧ t.duration = t'.duration) ∧
      (DnsVerification.views (.int 32) (Document.double 0.1)).map (·.deaddropInteractive) =
        .ok true ∧
      (DnsVerification.views (.int 32) (Document.double 0.9)).map (·.deaddropInteractive) =
        .ok false := by
  have hle : (Number.double 0.1).le (.double 0.9) = true := by decide +kernel
  obtain ⟨d, hd⟩ : ∃ d, build (asking (.double 0.1)) = .ok d := ⟨_, rfl⟩
  have hagree := threshold_only_gates_input
    (differInThreshold_asking (.double 0.1) (.double 0.9)) rfl rfl hle
  obtain ⟨d', hd', -, hplans⟩ := hagree.exists_ok hd
  refine ⟨differInThreshold_asking _ _, hle, ⟨d, d', hd, hd', ?_⟩, by rfl, by rfl⟩
  intro plan memory t report hpresent
  obtain ⟨⟨t', report'⟩, hpresent', hduration, hreport, -⟩ :=
    (hplans plan memory).exists_ok hpresent
  obtain rfl : report = report' := hreport
  exact ⟨t', hpresent', hduration⟩

end Director

end Showreel
