import Showreel.Proofs.CommandLine.Refusals
import Showreel.Proofs.Director.Plans
import Showreel.Proofs.Document.Entries
import Showreel.Proofs.Export

/-!
# Steps of an export

An export covers its timeline in steps of the size that the configuration asks for, if that is a
positive one. A step that a command line gives takes the place of the configured one, and is refused
unless it is positive. A configured step is not looked at: zero stops the export, but in negative
steps nothing is sampled, and a document without frames is written.
-/

namespace Showreel

/-! ## Questions to screenings -/

namespace Screening

variable {β : Type} {question : Screening → Except Fault β} {answer : β} {s s' : Screening}

/-- The timeline of a screening is one that it makes. -/
def IsMade (s : Screening) : Prop := ∃ memory, s.make memory = .ok s.timeline

theorem start_eq_ok {make : Spring.Memory → Except Fault (Timeline Document)}
    {memory : Spring.Memory} (h : start make memory = .ok s) : s.make = make ∧ s.IsMade := by
  obtain ⟨t, ht, h⟩ := bind_eq_ok_iff.mp h
  cases h
  exact ⟨rfl, memory, ht⟩

theorem measure_eq_ok {i : Nat} (h : s.measure i = .ok s') : s'.make = s.make ∧ s'.IsMade := by
  obtain ⟨memory, -, h⟩ := bind_eq_ok_iff.mp h
  exact start_eq_ok h

theorem exists_of_askAgain {fuel : Nat} (hmade : s.IsMade)
    (h : (askAgain question fuel s).1 = .ok answer) :
    ∃ s', s'.make = s.make ∧ s'.IsMade ∧ question s' = .ok answer := by
  induction fuel generalizing s with
  | zero => exact ⟨s, rfl, hmade, h⟩
  | succ fuel ih =>
    rw [askAgain] at h
    split at h
    case h_1 =>
      split at h
      case h_1 hmeasure =>
        obtain ⟨hmake, hmade'⟩ := measure_eq_ok hmeasure
        obtain ⟨s', hmake', hs'⟩ := ih hmade' h
        exact ⟨s', hmake'.trans hmake, hs'⟩
      case h_2 => cases h
    case h_2 => exact ⟨s, rfl, hmade, h⟩

/-- An answer is the one for some timeline that the screening makes. -/
theorem exists_of_ask (hmade : s.IsMade) (h : (s.ask question).1 = .ok answer) :
    ∃ s', s'.make = s.make ∧ s'.IsMade ∧ question s' = .ok answer :=
  exists_of_askAgain hmade h

end Screening

namespace CommandLine

/-! ## Options -/

section Options

variable {o o' : Options}

/-- What the option of the step may be: absent, an integer, or what two dashes leave. -/
def Options.StepReads (o : Options) : Prop :=
  o.step = .null ∨ (∃ step, o.step = .int step) ∨ o.step = .list []

theorem Options.le_zero_eq (step : Int) :
    Arith.le (Document.int step) (.int 0) = .ok (decide (step ≤ 0)) :=
  Arith.Whole.le_ofInt step 0

theorem Options.stepReads_give (h : o.StepReads) {flag : Flag} {spelling value : String}
    (hgive : o.give flag spelling value = .ok o') : o'.StepReads := by
  cases flag <;> rw [give] at hgive
  case step =>
    obtain ⟨step, hstep, hgive⟩ := bind_eq_ok_iff.mp hgive
    cases hgive
    unfold integer at hstep
    split at hstep
    · cases hstep
      exact .inr (.inr rfl)
    · split at hstep <;> cases hstep
      exact .inr (.inl ⟨_, rfl⟩)
  case frame =>
    obtain ⟨frame, -, hgive⟩ := bind_eq_ok_iff.mp hgive
    cases hgive
    exact h
  all_goals
    cases hgive
    exact h

theorem Options.stepReads_collect (h : o.StepReads) {extras : List String} {tokens : List Token}
    (hcollect : collect o extras tokens = .ok o') : o'.StepReads := by
  fun_induction collect o extras tokens with
  | case1 | case8 | case11 =>
    cases hcollect
    exact h
  | case2 | case7 | case10 => cases hcollect
  | case3 _ _ _ _ ih | case4 _ _ _ ih | case5 _ _ _ _ ih | case12 _ _ _ _ _ _ _ ih =>
    exact ih h hcollect
  | case6 _ _ _ _ _ _ _ ih | case9 _ _ _ _ _ _ _ ih =>
    obtain ⟨o, hgive, hcollect⟩ := bind_eq_ok_iff.mp hcollect
    exact ih o (stepReads_give h hgive) hcollect

theorem Options.stepReads_parse {arguments : List String} (h : parse arguments = .ok o) :
    o.StepReads := by
  obtain ⟨tokens, -, h⟩ := bind_eq_ok_iff.mp h
  exact stepReads_collect (.inl rfl) h

end Options

/-! ## Exports of a timeline -/

section Exports

variable {t : Timeline Document}

/-- Frames as they were written cover a timeline of `n` frames: the first one is there, each step
that begins in front of the end has its frame, and nothing else was written. -/
structure Covers (t : Timeline Document) (n step : Int) (frames : List Document) : Prop where
  head : ∃ first rest, frames = first :: rest ∧
    first.setting "global_frame" .null = .ok (.int 0)
  lt_length_iff : ∀ k : Nat, k < frames.length ↔ k * step < n
  place : ∀ (k : Nat) frame, frames[k]? = some frame →
    frame.setting "global_frame" .null = .ok (.int (k * step)) ∧
      ∃ composed, t.frameAt (.int (k * step)) = .ok composed ∧ frame = composed.snapshot.plain

theorem Covers.ne_nil {n step : Int} {frames : List Document} (h : Covers t n step frames) :
    frames ≠ [] := by
  obtain ⟨first, rest, hcons, -⟩ := h.head
  rw [hcons]
  exact List.cons_ne_nil _ _

/-- What exports of a timeline of `n` frames write, by the step that their configuration asks
for. -/
structure ExportsBySteps (files : Files) (t : Timeline Document) (n : Int) : Prop where
  duration : t.duration = .ok (.int n)
  written : ∀ {path c lines w settings step}, exportStates t path c files = .ok (lines, w) →
    ExportSettings.ofConfiguration c = .ok settings → settings.step = .int step →
      step ≠ 0 ∧ ∃ frames, w.document.setting "frames" .null = .ok (.list frames) ∧
        (Covers t n step frames ↔ 0 < step) ∧ (frames = [] ↔ step < 0)

theorem covers_of_sampleFrames {l : Layout} (h : t.Follows l) {step : Nat} (hstep : 1 ≤ step)
    {frames : List (ComposedFrame Document)}
    (hframes : t.sampleFrames (.int 0) none (.int step) = .ok frames) :
    Covers t l.duration step (frames.map fun frame => frame.snapshot.plain) := by
  have hplace : ∀ (k : Nat) frame, (frames.map fun frame => frame.snapshot.plain)[k]? = some frame →
      frame.setting "global_frame" .null = .ok (.int (k * step)) ∧
        ∃ composed, t.frameAt (.int (k * step)) = .ok composed ∧
          frame = composed.snapshot.plain := by
    intro k frame hframe
    rw [List.getElem?_map, Option.map_eq_some_iff] at hframe
    obtain ⟨composed, hcomposed, rfl⟩ := hframe
    have hglobal := h.globalFrame_eq hstep hframes hcomposed
    have hfound := ((h.sampleFrames_eq_ok_iff hstep).mp hframes).2 k composed hcomposed
    rw [Nat.cast_mul] at hglobal hfound
    exact ⟨congrArg Except.ok hglobal, composed, hfound, rfl⟩
  refine ⟨?_, fun k => ?_, hplace⟩
  · obtain ⟨first, rest, hcons⟩ := List.exists_cons_of_length_pos (h.length_pos hstep hframes)
    rw [hcons, List.map_cons] at hplace ⊢
    obtain ⟨hfirst, -⟩ := hplace 0 _ rfl
    rw [Nat.cast_zero, zero_mul] at hfirst
    exact ⟨_, _, rfl, hfirst⟩
  · rw [List.length_map, h.lt_length_iff hstep hframes, Nat.cast_mul]

/-- The sign of the step tells what is sampled: with a positive one enough to cover the timeline,
with a negative one nothing. -/
theorem covers_iff_of_sampleFrames {l : Layout} (h : t.Follows l) {step : Int}
    {frames : List (ComposedFrame Document)}
    (hframes : t.sampleFrames (.int 0) none (.int step) = .ok frames) :
    step ≠ 0 ∧
      (Covers t l.duration step (frames.map fun frame => frame.snapshot.plain) ↔ 0 < step) ∧
      (frames = [] ↔ step < 0) := by
  have hranged := (Timeline.sampleFrames_none h.duration_eq _ _).symm.trans hframes
  have hne := Timeline.ne_zero_of_sampleFrames hranged
  have hback : step < 0 → frames = [] :=
    fun hneg => Timeline.sampleFrames_eq_nil hneg l.duration_pos.le hranged
  have hahead : 0 < step →
      Covers t l.duration step (frames.map fun frame => frame.snapshot.plain) := by
    intro hpos
    obtain ⟨stride, rfl⟩ := Int.eq_ofNat_of_zero_le hpos.le
    exact covers_of_sampleFrames h (by omega) hframes
  refine ⟨hne, ⟨fun hcovers => ?_, hahead⟩, ⟨fun hnil => ?_, hback⟩⟩
  · by_contra hnonpos
    have hnil := hback (by omega)
    exact hcovers.ne_nil (List.map_eq_nil_iff.mpr hnil)
  · by_contra hnonneg
    exact (hahead (by omega)).ne_nil (List.map_eq_nil_iff.mpr hnil)

theorem exportsBySteps_of_follows {l : Layout} (h : t.Follows l) (files : Files) :
    ExportsBySteps files t l.duration := by
  refine ⟨h.duration_eq, fun {path c lines w settings step} hexport hsettings hstep => ?_⟩
  obtain ⟨settings', e, hsettings', he, hdocument⟩ := exists_of_exportStates hexport
  have hsame := Except.ok.inj (hsettings'.symm.trans hsettings)
  obtain ⟨frames, hframes, rfl⟩ := Export.sample_eq_ok_iff.mp he
  obtain ⟨width, height, -, -, hdocument⟩ :=
    (Export.document_eq_ok_iff h.duration_eq).mp hdocument
  rw [hsame, hstep] at hframes
  obtain ⟨hne, hcovers, hnil⟩ := covers_iff_of_sampleFrames h hframes
  refine ⟨hne, frames.map fun frame => frame.snapshot.plain, ?_, hcovers, ?_⟩
  · rw [hdocument]
    rfl
  · rw [List.map_eq_nil_iff]
    exact hnil

end Exports

/-! ## Runs that write -/

section Runs

variable {arguments : List String} {files : Files} {o : Options} {c : Document} {d : Director}
  {outcome : Outcome} {path : String} {w : Written}

theorem written_eq_none_of_refuse {lines : List String} {fault : Fault}
    (h : Outcome.refuse lines fault = .ok outcome) : outcome.written = none := by
  cases fault <;> cases h
  rfl

theorem written_eq_none_of_listAll {lines names : List String}
    (h : listAll d lines names = .ok outcome) : outcome.written = none := by
  induction names generalizing lines with
  | nil =>
    cases h
    rfl
  | cons name names ih =>
    rw [listAll] at h
    split at h
    · exact ih h
    · exact written_eq_none_of_refuse h

theorem written_eq_none_of_showFrame {t : Timeline Document} {report : String} {frame : Document}
    (h : showFrame t report frame = .ok outcome) : outcome.written = none := by
  obtain ⟨composed, -, h⟩ := bind_eq_ok_iff.mp h
  extract_lets document shown at h
  have hshown : ∀ notes, shown notes = .ok outcome → outcome.written = none := by
    intro notes h
    obtain ⟨text, -, h⟩ := bind_eq_ok_iff.mp h
    cases h
    rfl
  split at h
  all_goals
    obtain ⟨notes, -, h⟩ := bind_eq_ok_iff.mp h
    exact hshown notes h

theorem written_of_exportTo {t : Timeline Document} {report place : String}
    (h : exportTo t report place c files = .ok outcome) (hw : outcome.written = some (path, w)) :
    place = path ∧ ∃ lines, exportStates t path c files = .ok (lines, w) := by
  obtain ⟨banner, -, h⟩ := bind_eq_ok_iff.mp h
  obtain ⟨⟨lines, written⟩, hexport, h⟩ := bind_eq_ok_iff.mp h
  cases h
  obtain ⟨rfl, rfl⟩ := Prod.mk.inj (Option.some.inj hw)
  exact ⟨rfl, lines, hexport⟩

/-- What is composed for options: the plan that they ask for, and a timeline of it. -/
theorem exists_of_composition {s : Screening} {report : String}
    (h : composition d o files = .ok (s, report)) :
    ∃ plan, CommandLine.plan d o files = .ok plan ∧ s.make = d.timeline plan ∧ s.IsMade := by
  obtain ⟨plan, hplan, h⟩ := bind_eq_ok_iff.mp h
  obtain ⟨s', hs, h⟩ := bind_eq_ok_iff.mp h
  obtain ⟨report', -, h⟩ := bind_eq_ok_iff.mp h
  cases h
  exact ⟨plan, hplan, Screening.start_eq_ok hs⟩

/-- A director exports a timeline of the plan that is asked for. -/
structure Exports (d : Director) (o : Options) (c : Document) (files : Files) (path : String)
    (w : Written) (plan : Storyboard) (t : Timeline Document) : Prop where
  asked : path? o.output = some path
  planned : CommandLine.plan d o files = .ok plan
  timed : ∃ memory, d.timeline plan memory = .ok t
  exported : ∃ lines, exportStates t path c files = .ok (lines, w)

theorem exports_of_perform (h : perform o c files = .ok outcome)
    (hw : outcome.written = some (path, w)) :
    ∃ d plan t, Director.build c = .ok d ∧ Exports d o c files path w plan t := by
  have hwritten : outcome.written ≠ none := by simp [hw]
  obtain ⟨d, hd, h⟩ := bind_eq_ok_iff.mp h
  split at h
  case isTrue => exact absurd (written_eq_none_of_listAll h) hwritten
  case isFalse =>
    split at h
    case h_1 =>
      cases h
      exact absurd rfl hwritten
    case h_2 =>
      split at h
      case h_1 => exact absurd (written_eq_none_of_refuse h) hwritten
      case h_2 s report place hcomposition _ hoption =>
        obtain ⟨plan, hplan, hmake, hmade⟩ := exists_of_composition hcomposition
        obtain ⟨s', hmake', ⟨memory, ht⟩, hexport⟩ := Screening.exists_of_ask hmade h
        obtain ⟨rfl, hlines⟩ := written_of_exportTo hexport hw
        rw [hmake', hmake] at ht
        exact ⟨d, plan, s'.timeline, hd, hoption, hplan, ⟨memory, ht⟩, hlines⟩
      case h_3 s report hcomposition _ =>
        obtain ⟨-, -, -, hmade⟩ := exists_of_composition hcomposition
        obtain ⟨s', -, -, hshow⟩ := Screening.exists_of_ask hmade h
        exact absurd (written_eq_none_of_showFrame hshow) hwritten

/-- A run that writes performs what it was asked for in good form. -/
theorem perform_of_run (h : run arguments files = .ok outcome) (hw : outcome.written ≠ none) :
    ∃ o c, Options.parse arguments = .ok o ∧ o.help = false ∧
      (o.step = .null ∨ Arith.le o.step (.int 0) = .ok false) ∧ settings o files = .ok c ∧
      perform o c files = .ok outcome := by
  have hcomplain : ∀ complaint, Outcome.complain complaint ≠ outcome := by
    intro complaint heq
    rw [← heq] at hw
    exact hw rfl
  unfold run at h
  split at h
  case h_1 => exact absurd (Except.ok.inj h) (hcomplain _)
  case h_2 o hparse =>
    split at h
    case isTrue =>
      cases h
      exact absurd rfl hw
    case isFalse hhelp =>
      have hhelp := Bool.eq_false_of_not_eq_true hhelp
      obtain ⟨configured, hconfigured, h⟩ := bind_eq_ok_iff.mp h
      split at h
      case h_1 hstep =>
        refine ⟨o, configured, hparse, hhelp, .inl hstep, ?_, h⟩
        rw [settings, hconfigured, ok_bind, hstep]
        rfl
      case h_2 hstep =>
        obtain ⟨tooSmall, hle, h⟩ := bind_eq_ok_iff.mp h
        split at h
        case isTrue => exact absurd (Except.ok.inj h) (hcomplain _)
        case isFalse hlarge =>
          obtain ⟨c, hc, h⟩ := bind_eq_ok_iff.mp h
          rw [Bool.eq_false_of_not_eq_true hlarge] at hle
          refine ⟨o, c, hparse, hhelp, .inr hle, ?_, h⟩
          rw [settings, hconfigured, ok_bind]
          split
          case h_1 heq => exact absurd heq hstep
          case h_2 => exact hc

/-- A run that writes exports a timeline of the plan that it was asked for. -/
theorem exports_of_run (h : run arguments files = .ok outcome)
    (hw : outcome.written = some (path, w)) :
    ∃ o c d plan t, Request arguments files o c ∧ Director.build c = .ok d ∧
      Exports d o c files path w plan t := by
  have hwritten : outcome.written ≠ none := by simp [hw]
  obtain ⟨o, c, hparse, hhelp, hstep, hsettings, hperform⟩ := perform_of_run h hwritten
  obtain ⟨d, plan, t, hd, hexports⟩ := exports_of_perform hperform hw
  have hasks : o.Asks := by
    right
    right
    rw [hexports.asked]
    exact Option.some_ne_none _
  exact ⟨o, c, d, plan, t, ⟨hparse, hhelp, hasks, hstep, hsettings⟩, hd, hexports⟩

/-- A step that is put among the settings is the one that holds. -/
theorem step_of_withStep {configured step : Document} {settings : ExportSettings}
    (h : Configuration.withStep configured step = .ok c)
    (hsettings : ExportSettings.ofConfiguration c = .ok settings) : settings.step = step := by
  obtain ⟨entries, -, h⟩ := bind_eq_ok_iff.mp h
  dsimp only at h
  split at h
  case h_2 => contradiction
  case h_1 es _ =>
    cases h
    obtain ⟨video, -, hsettings⟩ := bind_eq_ok_iff.mp hsettings
    obtain ⟨exporting, hexport, hsettings⟩ := bind_eq_ok_iff.mp hsettings
    obtain ⟨step', hstep, hsettings⟩ := bind_eq_ok_iff.mp hsettings
    obtain ⟨indent, -, hsettings⟩ := bind_eq_ok_iff.mp hsettings
    cases hsettings
    rw [Document.setting, Document.entries, ok_bind, Document.lookup_put_self] at hexport
    cases hexport
    rw [Option.getD_some, Document.setting, Document.entries, ok_bind,
      Document.lookup_put_self] at hstep
    cases hstep
    rfl

/-- A step that is not positive is refused where a command line gives it. -/
theorem run_of_step_nonpos {step : Int} {configured : Document}
    (hparse : Options.parse arguments = .ok o) (hhelp : o.help = false)
    (hconfigured : configuration o files = .ok configured) (hstep : o.step = .int step)
    (hnonpos : step ≤ 0) : run arguments files = .ok (Outcome.complain .stepNotPositive) := by
  have hle := Options.le_zero_eq step
  rw [decide_eq_true hnonpos] at hle
  unfold run
  rw [hparse]
  simp only [hhelp, Bool.false_eq_true, ↓reduceIte, hconfigured, ok_bind, hstep, hle]
  rfl

/-- The step of a run that writes is the one that the command line gives, if it gives one, and then
a positive one. -/
theorem Request.step_cases (h : Request arguments files o c) {settings : ExportSettings}
    (hsettings : ExportSettings.ofConfiguration c = .ok settings) :
    (o.step = .null ∧ configuration o files = .ok c) ∨
      ∃ step : Int, 0 < step ∧ o.step = .int step ∧ settings.step = .int step := by
  obtain ⟨configured, hconfigured, hc⟩ := bind_eq_ok_iff.mp h.configured
  rcases h.step with hnull | hle
  · rw [hnull] at hc
    cases hc
    exact .inl ⟨hnull, hconfigured⟩
  · rcases Options.stepReads_parse h.parsed with hnull | ⟨step, hstep⟩ | hlist
    · rw [hnull] at hle
      contradiction
    · rw [hstep] at hc hle
      have hdecide := Except.ok.inj ((Options.le_zero_eq step).symm.trans hle)
      have hpos : 0 < step := not_le.mp (of_decide_eq_false hdecide)
      exact .inr ⟨step, hpos, hstep, step_of_withStep hc hsettings⟩
    · rw [hlist] at hle
      contradiction

end Runs

/-- What is exported of an accepted timeline with integer lengths covers it exactly if the step is
positive; a step of zero stops the export, and in negative steps no frames are written. A command
line refuses a step that is not positive. What a run writes is an export of the plan that is asked
for, by the step of the command line if there is one and by that of the configuration if not. -/
theorem exports_cover_iff_step_positive (files : Files) :
    (∀ items fps name t, (∀ item ∈ items, item.IsWhole) →
      Timeline.build items fps name = .ok t → ∃ n, ExportsBySteps files t n) ∧
    (∀ arguments o configured step, Options.parse arguments = .ok o → o.help = false →
      configuration o files = .ok configured → o.step = .int step → step ≤ 0 →
        run arguments files = .ok (Outcome.complain .stepNotPositive)) ∧
    ∀ arguments outcome path w, run arguments files = .ok outcome →
      outcome.written = some (path, w) →
      ∃ o c d plan t settings, Request arguments files o c ∧ Director.build c = .ok d ∧
        Exports d o c files path w plan t ∧ ExportSettings.ofConfiguration c = .ok settings ∧
        ((o.step = .null ∧ configuration o files = .ok c) ∨
          ∃ step : Int, 0 < step ∧ o.step = .int step ∧ settings.step = .int step) ∧
        ((∀ e ∈ plan.scenes, e.IsWhole) → ∃ n, ExportsBySteps files t n) := by
  refine ⟨fun items fps name t hitems hbuild => ?_,
    fun arguments o configured step hparse hhelp hconfigured hstep hnonpos =>
      run_of_step_nonpos hparse hhelp hconfigured hstep hnonpos,
    fun arguments outcome path w hrun hw => ?_⟩
  · obtain ⟨l, h, -⟩ := Timeline.follows_of_build hitems hbuild
    exact ⟨l.duration, exportsBySteps_of_follows h files⟩
  · obtain ⟨o, c, d, plan, t, hrequest, hd, hexports⟩ := exports_of_run hrun hw
    obtain ⟨lines, hexport⟩ := hexports.exported
    obtain ⟨settings, e, hsettings, -, -⟩ := exists_of_exportStates hexport
    refine ⟨o, c, d, plan, t, settings, hrequest, hd, hexports, hsettings,
      hrequest.step_cases hsettings, fun hwhole => ?_⟩
    obtain ⟨memory, ht⟩ := hexports.timed
    obtain ⟨l, h, -⟩ := Director.follows_of_timeline hwhole ht
    exact ⟨l.duration, exportsBySteps_of_follows h files⟩

/-- A configuration that asks for exports in steps of a size. -/
def stepping (step : Int) : Document := .mapping [("export", .mapping [("step", .int step)])]

/-- A run that is asked by its configuration to step back writes a document without frames. -/
theorem backwards_not_refused :
    ∃ outcome w,
      run ["--config", "c.json", "--composition", "outro_card", "--output", "out.json"]
        (holding (stepping (-1))) = .ok outcome ∧
      outcome.exitCode = 0 ∧ outcome.written = some ("out.json", w) ∧
      (w.document.setting "frames" .null >>= Document.size) = .ok 0 := by
  have hrun : (run ["--config", "c.json", "--composition", "outro_card", "--output", "out.json"]
      (holding (stepping (-1))) >>= fun outcome => .ok (outcome.exitCode,
        outcome.written.map fun written =>
          (written.1, written.2.document.setting "frames" .null >>= Document.size))) =
        .ok (0, some ("out.json", .ok 0)) := by
    decide +kernel
  obtain ⟨outcome, houtcome, hrun⟩ := bind_eq_ok_iff.mp hrun
  obtain ⟨hexit, hwritten⟩ := Prod.mk.inj (Except.ok.inj hrun)
  obtain ⟨⟨path, w⟩, hw, hframes⟩ := Option.map_eq_some_iff.mp hwritten
  obtain ⟨rfl, hframes⟩ := Prod.mk.inj hframes
  exact ⟨outcome, w, houtcome, hexit, hw, hframes⟩

/-- Nine frames are exported in configured steps of four, a given step of zero is refused, and a
given step replaces one that would have led back. -/
theorem exports_cover_iff_step_positive_shortMiddle :
    (∃ t lines w frames, (∀ item ∈ Timeline.shortMiddle, item.IsWhole) ∧
      Timeline.build Timeline.shortMiddle (.int 30) (.text "cards") = .ok t ∧
      exportStates t "out.json" (stepping 4) (holding .null) = .ok (lines, w) ∧
      w.document.setting "frames" .null = .ok (.list frames) ∧ Covers t 9 4 frames) ∧
    run ["--step", "0"] (holding .null) = .ok (Outcome.complain .stepNotPositive) ∧
    ∃ outcome w t n frames,
      run ["--config", "c.json", "--composition", "outro_card", "--output", "out.json", "--step",
        "100"] (holding (stepping (-1))) = .ok outcome ∧ outcome.written = some ("out.json", w) ∧
      w.document.setting "frames" .null = .ok (.list frames) ∧ Covers t n 100 frames := by
  obtain ⟨hbuilt, hrefused, -⟩ := exports_cover_iff_step_positive (holding .null)
  obtain ⟨-, -, hwritten⟩ := exports_cover_iff_step_positive (holding (stepping (-1)))
  refine ⟨?_, ?_, ?_⟩
  · have hrun : (Timeline.build Timeline.shortMiddle (.int 30) (.text "cards") >>= fun t =>
        t.duration) = .ok (.int 9) := rfl
    obtain ⟨t, hbuild, hduration⟩ := bind_eq_ok_iff.mp hrun
    have hexport : (Timeline.build Timeline.shortMiddle (.int 30) (.text "cards") >>= fun t =>
        exportStates t "out.json" (stepping 4) (holding .null)).isOk := by
      decide +kernel
    obtain ⟨⟨lines, w⟩, hexport⟩ := exists_ok_of_isOk hexport
    rw [hbuild, ok_bind] at hexport
    obtain ⟨n, hsteps⟩ := hbuilt _ _ _ t Timeline.shortMiddle_isWhole hbuild
    obtain rfl : n = 9 :=
      Document.int.inj (Except.ok.inj (hsteps.duration.symm.trans hduration))
    obtain ⟨-, frames, hframes, hcovers, -⟩ := hsteps.written hexport rfl rfl
    exact ⟨t, lines, w, frames, Timeline.shortMiddle_isWhole, hbuild, hexport, hframes,
      hcovers.mpr (by decide)⟩
  · refine hrefused _ { step := .int 0 } Configuration.standard 0 ?_ rfl rfl rfl le_rfl
    with_unfolding_all rfl
  · have hrun : (run ["--config", "c.json", "--composition", "outro_card", "--output", "out.json",
        "--step", "100"] (holding (stepping (-1))) >>= fun outcome =>
          .ok (outcome.written.map Prod.fst)) = .ok (some "out.json") := by
      decide +kernel
    obtain ⟨outcome, houtcome, hrun⟩ := bind_eq_ok_iff.mp hrun
    obtain ⟨⟨path, w⟩, hw, rfl⟩ := Option.map_eq_some_iff.mp (Except.ok.inj hrun)
    obtain ⟨o, c, d, plan, t, settings, hrequest, hd, hexports, hsettings, hstep, hwhole⟩ :=
      hwritten _ outcome _ w houtcome hw
    have ho : Options.parse ["--config", "c.json", "--composition", "outro_card", "--output",
        "out.json", "--step", "100"] = .ok {
          config := .text "c.json", composition := .text "outro_card", output := .text "out.json"
          step := .int 100 } := by
      with_unfolding_all rfl
    obtain rfl := Except.ok.inj (ho.symm.trans hrequest.parsed)
    obtain ⟨lines, hexport⟩ := hexports.exported
    have hsingle : Template.single .outroCard d.configuration = .ok plan := hexports.planned
    obtain ⟨n, hsteps⟩ := hwhole (Template.isWhole_of_single hsingle)
    obtain ⟨hnull, -⟩ | ⟨step, -, hgiven, hstep⟩ := hstep
    · contradiction
    · cases hgiven
      obtain ⟨-, frames, hframes, hcovers, -⟩ := hsteps.written hexport hsettings hstep
      exact ⟨outcome, w, t, n, frames, houtcome, hw, hframes, hcovers.mpr (by decide)⟩

end CommandLine

end Showreel
