import Showreel.Proofs.Director.Lengths
import Showreel.Proofs.Director.Presented
import Showreel.Proofs.Scene.Asked
import Showreel.Proofs.Timeline.Asked

/-!
# Sampling plans

A plan whose lengths are integers is checked so far that only a spring can spoil its samples. Its
frames can be counted, and whether every so many of them can be composed is told by the springs that
move at them: those that carry what its scenes show, and those that drive its transitions. Nothing
else stops sampling. A plan may be accepted with a double among its lengths, and then nothing of it
can be sampled at all.
-/

namespace Showreel

open Arith (ofInt)

/-- What an entry of a plan asks of springs at one of its own frames. -/
def Storyboard.asked (plan : Storyboard) (i : Nat) (o : Int) : List (Except Fault Document) :=
  match plan.scenes[i]?.bind SceneEntry.scene? with
  | some scene => scene.asked (Stage.ofRate plan.fps) o
  | none => []

namespace Director

variable {d : Director} {plan : Storyboard} {memory : Spring.Memory} {t : Timeline Document}

theorem Leads.isSmooth {e : SceneEntry} {tr : Transition Document} (h : d.Leads e tr) :
    tr.IsSmooth := by
  obtain ⟨easing, -, h⟩ := h
  cases htiming : e.timing with
  | linear =>
    rw [htiming] at h
    rw [h]
    exact ⟨⟨_, rfl⟩, easing.exists_apply_double⟩
  | spring =>
    rw [htiming] at h
    obtain ⟨config, -, rfl⟩ := h
    exact ⟨⟨_, rfl⟩, Easing.linear.exists_apply_double⟩

section Realizes

variable (h : d.Realizes plan t)

include h

theorem Realizes.isSmooth : ∀ tr ∈ t.transitions, tr.IsSmooth := by
  intro tr htr
  obtain ⟨i, hi⟩ := List.mem_iff_getElem?.mp htr
  obtain ⟨e, -, hleads⟩ := exists_getElem?_of_forall₂ h.transitions hi
  exact hleads.isSmooth

theorem Realizes.scene_asksFor (hthreshold : d.threshold.number?.isSome) {i : Nat}
    {s : Segment Document} (hs : t.segments[i]? = some s) {o : Int} (ho : o.natAbs < 2 ^ 63) :
    AsksFor (plan.asked i o) (s.scene (ofInt o)) := by
  obtain ⟨e, he, scene, hscene, rfl⟩ := exists_getElem?_of_forall₂ h.segments hs
  have hasked : plan.asked i o = scene.asked (Stage.ofRate plan.fps) o := by
    rw [Storyboard.asked, he, Option.bind_some, hscene]
  rw [hasked]
  exact Scene.state_asksFor _ (Spring.animated_isMeasured _ _) hthreshold ho scene

/-- Every so many frames of a plan are sampled exactly if the springs asked for at them answer. -/
theorem Realizes.sampleFrames_asksFor {l : Layout} (hl : t.Follows l)
    (hdrives : t.drives =
      t.transitions.map fun tr => @Transition.drive _ _ memory.animated tr t.fps)
    (hthreshold : d.threshold.number?.isSome) (hroom : l.duration < 2 ^ 63) {k : Nat} (hk : 0 < k) :
    AsksFor (((List.range l.duration.toNat).filter (k ∣ ·)).flatMap fun f : Nat =>
      t.asked l plan.asked f) (t.sampleFrames (.int 0) none (.int k)) := by
  let _ := memory.animated
  refine hl.sampleFrames_asksFor hdrives h.isSmooth (fun i s hs o ho ho' => ?_) hk
  have hlength := l.length_le_duration i
  exact h.scene_asksFor hthreshold hs (by omega)

end Realizes

theorem exists_present (ht : d.timeline plan memory = .ok t)
    (hid : ∃ s, plan.compositionId.shown = .ok s) {v : Document} (hduration : t.duration = .ok v)
    (hframes : ∃ s, v.shown = .ok s) (hrate : ∃ s, plan.fps.shown = .ok s) :
    ∃ report, d.present plan memory = .ok (t, report) := by
  obtain ⟨id, hid⟩ := hid
  obtain ⟨frames, hframes⟩ := hframes
  obtain ⟨rate, hrate⟩ := hrate
  unfold present report
  rw [ht, ok_bind, hid, ok_bind, hduration, ok_bind, hframes, ok_bind, hrate]
  exact ⟨_, rfl⟩

/-- A plan that is presented is a timeline that lasts. -/
theorem timeline_of_present {report : String} (h : d.present plan memory = .ok (t, report)) :
    d.timeline plan memory = .ok t ∧ ∃ v, t.duration = .ok v := by
  obtain ⟨t', ht, h⟩ := bind_eq_ok_iff.mp h
  obtain ⟨_, hreport, h⟩ := bind_eq_ok_iff.mp h
  cases h
  obtain ⟨_, -, hreport⟩ := bind_eq_ok_iff.mp hreport
  obtain ⟨v, hv, -⟩ := bind_eq_ok_iff.mp hreport
  exact ⟨ht, v, hv⟩

/-- With a double among its lengths nothing of a plan can be counted or sampled. -/
theorem not_sampled_of_present {report : String} (h : d.present plan memory = .ok (t, report))
    (hdouble : plan.HasDouble) : t.frameCount = .error .wrongType ∧
      ∀ k : Int, t.sampleFrames (.int 0) none (.int k) = .error .wrongType := by
  obtain ⟨ht, v, hv⟩ := timeline_of_present h
  exact Timeline.not_sampled_of_isDouble hv ((duration_isDouble_iff_hasDouble ht hv).mpr hdouble)

/-- What is counted and sampled of a plan with integer lengths: its frames are counted, unless they
are too many for 63 bits, and every so many of them are sampled, in order, exactly if the springs
asked for at these frames answer. What stops sampling is what stops one of those springs. -/
structure Samples (plan : Storyboard) (t : Timeline Document) : Prop where
  total_pos : 0 < plan.total
  duration : t.duration = .ok (.int plan.total)
  count : t.frameCount = if plan.total < 2 ^ 63 then .ok plan.total.toNat else .error .overflow
  sampled : plan.total < 2 ^ 63 → ∃ l : Layout, t.Follows l ∧ l.duration = plan.total ∧
    ∀ k : Nat, 0 < k →
      AsksFor (((List.range plan.total.toNat).filter (k ∣ ·)).flatMap fun f : Nat =>
          t.asked l plan.asked f) (t.sampleFrames (.int 0) none (.int k)) ∧
      ∀ frames, t.sampleFrames (.int 0) none (.int k) = .ok frames →
        frames.map ComposedFrame.globalFrame =
          ((List.range plan.total.toNat).filter (k ∣ ·)).map fun f : Nat => .int f

theorem samples_of_entries (hthreshold : d.threshold.number?.isSome)
    (hwhole : ∀ e ∈ plan.scenes, e.IsWhole) (ht : d.timeline plan memory = .ok t) :
    Samples plan t := by
  have hrealizes := realizes_of_entries hwhole ht
  obtain ⟨l, hl, hdrives⟩ := follows_of_timeline hwhole ht
  have htotal : l.duration = plan.total := hl.duration_unique hrealizes.duration_eq
  constructor
  case total_pos => exact htotal ▸ l.duration_pos
  case duration => exact hrealizes.duration_eq
  case count => rw [hl.frameCount_eq, htotal]
  case sampled =>
    rw [← htotal]
    refine fun hroom => ⟨l, hl, rfl, fun k hk => ⟨?_, ?_⟩⟩
    · exact hrealizes.sampleFrames_asksFor hl hdrives hthreshold hroom hk
    · exact fun frames hframes => hl.globalFrames_of_sampleFrames hk hframes

/-- The way into the first entry need not have a length at all. -/
theorem samples_of_lengths (hthreshold : d.threshold.number?.isSome) (hwhole : plan.HasWholeLengths)
    (ht : d.timeline plan memory = .ok t) : Samples plan t := by
  obtain ⟨first, others, -, -, hscenes, -⟩ := steps_of_timeline ht
  let plan' : Storyboard := { plan with
    scenes := { first with transitionDuration := .int 0 } :: others }
  have hentries : ∀ e ∈ plan'.scenes, e.IsWhole := by
    obtain ⟨hdurations, htransitions⟩ := hwhole
    rw [hscenes, List.forall_mem_cons] at hdurations
    rw [hscenes, List.tail_cons] at htransitions
    rw [List.forall_mem_cons]
    exact ⟨⟨hdurations.1, 0, rfl⟩, fun e he => ⟨hdurations.2 e he, htransitions e he⟩⟩
  have ht' : d.timeline plan' memory = .ok t := by
    rw [← ht, timeline_of_cons hscenes, timeline_of_cons rfl]
    rfl
  have htotal : plan'.total = plan.total := by
    rw [Storyboard.total, Storyboard.total, hscenes]
    rfl
  have hasked : plan'.asked = plan.asked := by
    funext i o
    rw [Storyboard.asked, Storyboard.asked, hscenes]
    cases i with
    | zero => rfl
    | succ i => rfl
  obtain ⟨hpos, hduration, hcount, hsampled⟩ := samples_of_entries hthreshold hentries ht'
  rw [htotal] at hpos hduration hcount hsampled
  rw [hasked] at hsampled
  exact ⟨hpos, hduration, hcount, hsampled⟩

/-- Of a plan that is presented nothing can be counted or sampled if a double is among its lengths.
If all of them are integers only a spring can spoil its samples. -/
theorem plan_sampled_unless_spring_fails (d : Director) (plan : Storyboard)
    (memory : Spring.Memory) (hthreshold : d.threshold.number?.isSome)
    {t : Timeline Document} {report : String} (h : d.present plan memory = .ok (t, report)) :
    (plan.HasDouble → t.frameCount = .error .wrongType ∧
        ∀ k : Int, t.sampleFrames (.int 0) none (.int k) = .error .wrongType) ∧
      (plan.HasWholeLengths → Samples plan t) :=
  ⟨not_sampled_of_present h,
    fun hwhole => samples_of_lengths hthreshold hwhole (timeline_of_present h).1⟩

/-! ## A plan without springs -/

section Still

variable (hlinear : ∀ e ∈ plan.scenes, e.timing = .linear) (h : d.Realizes plan t)

include hlinear h

/-- An easing drives every transition of a plan without springs between its scenes. -/
theorem Realizes.spring_eq_none : ∀ tr ∈ t.transitions, tr.spring = none := by
  intro tr htr
  obtain ⟨i, hi⟩ := List.mem_iff_getElem?.mp htr
  obtain ⟨e, he, easing, -, hleads⟩ := exists_getElem?_of_forall₂ h.transitions hi
  rw [hlinear e (List.mem_of_mem_tail (List.mem_of_getElem? he))] at hleads
  rw [hleads]

theorem Realizes.crossingAsked_eq_nil
    (hdrives : t.drives =
      t.transitions.map fun tr => @Transition.drive _ _ memory.animated tr t.fps)
    (j : Nat) (c : Int) : t.crossingAsked j c = [] := by
  unfold Timeline.crossingAsked
  cases hw : t.windowAt j (.int c) with
  | error fault => rfl
  | ok w =>
    obtain ⟨tr, htr, hw⟩ := bind_eq_ok_iff.mp hw
    rw [entryAt_eq_ok_iff] at htr
    have hspring := h.spring_eq_none hlinear tr (List.mem_of_getElem? htr)
    let _ := memory.animated
    rw [Timeline.entryAt_drives hdrives htr, ok_bind] at hw
    obtain ⟨start, -, hw⟩ := bind_eq_ok_iff.mp hw
    obtain ⟨offset, -, hw⟩ := bind_eq_ok_iff.mp hw
    cases hw
    simp only [Timeline.Window.asked, Transition.drive, hspring]

end Still

/-- Two outro cards, the first one cut short. -/
def outro : Storyboard := {
  compositionId := .text "outro"
  scenes := [
    { sceneId := .text "outro_card", duration := .int 40 }, { sceneId := .text "outro_card" }] }

/-- Nothing in them moves by a spring, so all of their frames can be sampled. -/
theorem plan_sampled_unless_spring_fails_outro :
    builtin.threshold.number?.isSome ∧ outro.HasWholeLengths ∧ outro.total < 2 ^ 63 ∧
      ∃ t report, builtin.present outro {} = .ok (t, report) ∧ t.frameCount = .ok 85 ∧
        ∀ k : Nat, 0 < k → ∃ frames, t.sampleFrames (.int 0) none (.int k) = .ok frames ∧
          frames.map ComposedFrame.globalFrame =
            ((List.range 85).filter (k ∣ ·)).map fun f : Nat => .int f := by
  have hentries : ∀ e ∈ outro.scenes, e.IsWhole := by
    simp only [outro, List.forall_mem_cons]
    exact ⟨⟨.inr ⟨40, rfl⟩, 15, rfl⟩, ⟨.inl rfl, 15, rfl⟩, by simp⟩
  have hlinear : ∀ e ∈ outro.scenes, e.timing = .linear := by simp [outro]
  have hscenes : ∀ i o, outro.asked i o = [] := by
    intro i o
    match i with
    | 0 => rfl
    | 1 => rfl
    | _ + 2 => rfl
  obtain ⟨t, ht⟩ : ∃ t, builtin.timeline outro {} = .ok t := ⟨_, rfl⟩
  have hrealizes := realizes_of_entries hentries ht
  obtain ⟨report, hpresent⟩ := exists_present ht ⟨_, rfl⟩ hrealizes.duration_eq
    (Document.exists_shown_int (by decide)) (Document.exists_shown_int (by decide))
  have hwhole : outro.HasWholeLengths :=
    ⟨fun e he => (hentries e he).duration,
      fun e he => (hentries e (List.mem_of_mem_tail he)).transition⟩
  obtain ⟨-, -, hcount, hsampled⟩ :=
    (plan_sampled_unless_spring_fails builtin outro {} rfl hpresent).2 hwhole
  obtain ⟨l, hl, -, hsamples⟩ := hsampled (by decide)
  refine ⟨rfl, hwhole, by decide, t, report, hpresent, hcount, fun k hk => ?_⟩
  obtain ⟨hasks, hframes⟩ := hsamples k hk
  obtain ⟨-, -, hdrives⟩ := follows_of_timeline hentries ht
  have hasked : ∀ c, t.asked l outro.asked c = [] := fun c => by
    simp [Timeline.asked, hscenes, hrealizes.crossingAsked_eq_nil hlinear hdrives]
  obtain ⟨frames, hsampled⟩ := hasks.exists_iff.mpr (by simp [hasked])
  exact ⟨frames, hsampled, hframes frames hsampled⟩

end Director

/-! ## Plans that are accepted all the same -/

theorem Double.exp_of_isInf {x : Float} (h : x.isInf = true) : Double.exp x = .ok x.exp := by
  unfold Double.exp
  simp [h]

namespace Spring

/-- A bouncy spring swings, and its phase is infinite once its time is. -/
theorem bouncy_swings : (do
    let o ← (bouncy : Config Document).oscillator
    let root ← Double.sqrt (1.0 - o.ratio * o.ratio)
    return decide (o.ratio < 1.0) &&
      ((-o.ratio * o.frequency * Double.infinity false).isInf &&
        (o.frequency * root * Double.infinity false).isInf) : Except Fault Bool) = .ok true := by
  decide +kernel

/-- An infinite time has no place in the oscillation of a bouncy spring. -/
theorem bouncy_at_infinity :
    stepResponse (Document.double (Double.infinity false)) bouncy = .error .badValue := by
  obtain ⟨o, ho, h⟩ := bind_eq_ok_iff.mp bouncy_swings
  obtain ⟨root, hroot, h⟩ := bind_eq_ok_iff.mp h
  have hall := Except.ok.inj h
  rw [Bool.and_eq_true, Bool.and_eq_true, decide_eq_true_eq] at hall
  obtain ⟨hratio, hdecay, hphase⟩ := hall
  have hlate : Arith.le (Document.double (Double.infinity false)) (ofInt 0) = .ok false := by
    decide +kernel
  have htime : Measured.measure (Document.double (Double.infinity false)) =
      .ok (Double.infinity false) := rfl
  have hroot' : Analytic.sqrt (1.0 - o.ratio * o.ratio) = .ok root := hroot
  have henvelope : o.decay (Double.infinity false) = .ok _ := Double.exp_of_isInf hdecay
  have hcosine : Analytic.cos (o.frequency * root * Double.infinity false) = .error .badValue :=
    if_pos hphase
  have hposition : o.position (Double.infinity false) = .error .badValue := by
    unfold Oscillator.position Oscillator.swinging
    rw [if_pos hratio, hroot', ok_bind, henvelope, ok_bind, hcosine]
    rfl
  unfold stepResponse
  rw [hlate, ok_bind, if_neg Bool.false_ne_true, ho, ok_bind, htime, ok_bind, hposition]
  rfl

end Spring

namespace Director

/-- A plan of one scene. -/
def alone (scene : String) (duration fps : Document) : Storyboard := {
  compositionId := .text "alone", fps
  scenes := [{ sceneId := .text scene, duration }] }

/-- A scene may be given any positive double for its length. -/
theorem double_presented {x : Float} (hx : Arith.le (Document.double x) (ofInt 0) = .ok false) :
    ∃ t report, builtin.present (alone "outro_card" (.double x) (.int 30)) {} =
      .ok (t, report) := by
  have hopening : ∀ stage, builtin.opening stage
      { sceneId := .text "outro_card", duration := .double x } = .ok [.segment {
        length := .double x, scene := Scene.outroCard.state stage builtin.threshold
        name := .text "outro_card" }] := by
    intro stage
    change Segment.build (Document.double x) _ _ >>= _ = _
    unfold Segment.build
    rw [hx]
    rfl
  obtain ⟨t, ht, y, hduration⟩ : ∃ t,
      builtin.timeline (alone "outro_card" (.double x) (.int 30)) {} = .ok t ∧
      ∃ y, t.duration = .ok (.double y) := by
    rw [timeline_of_cons rfl, hopening]
    exact ⟨_, rfl, _, rfl⟩
  obtain ⟨report, h⟩ := exists_present ht ⟨_, rfl⟩ hduration ⟨_, rfl⟩
    (Document.exists_shown_int (by decide))
  exact ⟨t, report, h⟩

/-- The smallest rate above zero. -/
def slowest : Document := .double (Float.ofBits 1)

/-- After one frame at the smallest rate a bouncy spring is asked for its place at an infinite
time. -/
theorem bouncy_at_slowest :
    (Spring.Animated.motion slowest Spring.bouncy).followedAt 0 none 1 = .error .badValue := by
  have hrate : Arith.le slowest (ofInt 0) = .ok false := by decide +kernel
  have htime : Arith.div (ofInt (1 - 0) : Document) slowest =
      .ok (.double (Double.infinity false)) := rfl
  have hresponse : Spring.clampedResponse Spring.bouncy (.double (Double.infinity false)) =
      (.error .badValue : Except Fault Document) := by
    unfold Spring.clampedResponse
    rw [Spring.bouncy_at_infinity, error_bind]
  change Spring.progressAt slowest _ (Spring.clampedResponse Spring.bouncy) (ofInt 0) none
    (ofInt 1) >>= Spring.followed = _
  unfold Spring.progressAt Spring.stretched
  rw [hrate, ok_bind, if_neg Bool.false_ne_true, Arith.Whole.lt_ofInt, ok_bind,
    if_neg (by decide), Arith.Whole.sub_ofInt, ok_bind, ok_bind, htime, ok_bind, hresponse,
    error_bind]

/-- A title card is not sampled at the smallest rate. -/
theorem titleCard_at_slowest : ∃ t report,
    builtin.present (alone "title_card" (.int 2) slowest) {} = .ok (t, report) ∧
      ¬ ∃ frames, t.sampleFrames (.int 0) none (.int 1) = .ok frames := by
  have hentries : ∀ e ∈ (alone "title_card" (.int 2) slowest).scenes, e.IsWhole := by
    simp only [alone, List.forall_mem_cons]
    exact ⟨⟨.inr ⟨2, rfl⟩, 15, rfl⟩, by simp⟩
  have hmade : (builtin.timeline (alone "title_card" (.int 2) slowest) {}).isOk := by
    decide +kernel
  obtain ⟨t, ht⟩ := exists_ok_of_isOk hmade
  have hrealizes := realizes_of_entries hentries ht
  obtain ⟨report, hpresent⟩ := exists_present ht ⟨_, rfl⟩ hrealizes.duration_eq
    (Document.exists_shown_int (by decide)) ⟨_, rfl⟩
  obtain ⟨l, hl, hdrives⟩ := follows_of_timeline hentries ht
  have htotal : l.duration = 2 := hl.duration_unique hrealizes.duration_eq
  have hasks := hrealizes.sampleFrames_asksFor hl hdrives rfl (by omega) (show 0 < 1 by decide)
  refine ⟨t, report, hpresent, fun hframes => ?_⟩
  have hcount : l.count = 1 := by
    rw [← hl.segments_count, ← hrealizes.segments.length_eq]
    rfl
  have hvisible : 0 ∈ l.visible 1 := by
    have hstop := l.stop_last
    rw [hcount, htotal] at hstop
    rw [Layout.mem_visible, l.start_zero, hstop]
    decide
  have hasked : (Spring.Animated.motion slowest Spring.bouncy).followedAt 0 none 1 ∈
      ((List.range l.duration.toNat).filter (1 ∣ ·)).flatMap fun f : Nat =>
        t.asked l (alone "title_card" (.int 2) slowest).asked f := by
    rw [htotal]
    refine List.mem_flatMap.mpr ⟨1, by decide, List.mem_flatMap.mpr ⟨0, hvisible, ?_⟩⟩
    rw [l.start_zero]
    exact List.mem_append_right _ (List.mem_singleton.mpr rfl)
  obtain ⟨v, hv⟩ := hasks.exists_iff.mp hframes _ hasked
  rw [bouncy_at_slowest] at hv
  cases hv

/-- Accepted plans that are not sampled: one with a double for a length, one with more frames than
can be counted, one at a rate so small that a spring is asked for an infinite time, and one
whose views cannot be compared with a threshold that is no number. -/
theorem accepted_plans_not_sampled :
    (∃ t report, builtin.present (alone "outro_card" (.double 10.0) (.int 30)) {} =
        .ok (t, report) ∧ t.frameCount = .error .wrongType ∧
      ∀ k : Nat, t.sampleFrames (.int 0) none (.int k) = .error .wrongType) ∧
    (∃ t report, builtin.present (alone "outro_card" (.int (2 ^ 63)) (.int 30)) {} =
        .ok (t, report) ∧ t.frameCount = .error .overflow) ∧
    (∃ t report, builtin.present (alone "title_card" (.int 2) slowest) {} = .ok (t, report) ∧
      ¬ ∃ frames, t.sampleFrames (.int 0) none (.int 1) = .ok frames) ∧
    ∃ t report, present { builtin with threshold := .text "low" }
        (alone "dns_verification" (.int 1) (.int 30)) {} = .ok (t, report) ∧
      t.sampleFrames (.int 0) none (.int 1) = .error .wrongType := by
  refine ⟨?_, ?_, titleCard_at_slowest, ?_⟩
  · obtain ⟨t, report, h⟩ := double_presented (x := 10.0) (by decide +kernel)
    obtain ⟨hcount, hsample⟩ :=
      not_sampled_of_present h (.inl ⟨_, List.mem_singleton_self _, _, rfl⟩)
    exact ⟨t, report, h, hcount, fun k => hsample k⟩
  · obtain ⟨t, ht, hduration, hcount⟩ : ∃ t,
        builtin.timeline (alone "outro_card" (.int (2 ^ 63)) (.int 30)) {} = .ok t ∧
        t.duration = .ok (.int (2 ^ 63)) ∧ t.frameCount = .error .overflow := ⟨_, rfl, rfl, rfl⟩
    obtain ⟨report, h⟩ :=
      exists_present ht ⟨_, rfl⟩ hduration (Document.exists_shown_int (by decide))
        (Document.exists_shown_int (by decide))
    exact ⟨t, report, h, hcount⟩
  · obtain ⟨t, ht, hduration, hsample⟩ : ∃ t, timeline { builtin with threshold := .text "low" }
        (alone "dns_verification" (.int 1) (.int 30)) {} = .ok t ∧ t.duration = .ok (.int 1) ∧
        t.sampleFrames (.int 0) none (.int 1) = .error .wrongType := ⟨_, rfl, rfl, rfl⟩
    obtain ⟨report, h⟩ :=
      exists_present ht ⟨_, rfl⟩ hduration (Document.exists_shown_int (by decide))
        (Document.exists_shown_int (by decide))
    exact ⟨t, report, h, hsample⟩

end Director

end Showreel
