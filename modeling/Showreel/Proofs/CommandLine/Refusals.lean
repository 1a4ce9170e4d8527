import Showreel.CommandLine.Run
import Showreel.Proofs.Document.Faults

/-!
# What a command line reports

Options that ask for a list, a frame or an output first set up a director and then have it make
compositions. Whatever is rejected while a composition is made is reported in a line and ends the
run with exit code one. Setting up the director is no part of that: where a configuration overrides
a spring with parameters that no spring may have, the rejection is not reported but stops the run.
-/

namespace Showreel

/-- A spring may not have the parameter. -/
def Rejection.OfSpring (cause : Rejection) : Prop :=
  ∃ got, cause = .massNotPositive got ∨ cause = .stiffnessNotPositive got ∨
    cause = .dampingNegative got

section Directors

variable {p : Rejection → Prop}

/-! ## Setting up a director -/

namespace Document

theorem rejectsFor_entries (v : Document) : RejectsFor p v.entries := by
  cases v with
  | mapping es => exact .ok es
  | _ => exact .error nofun

theorem rejectsFor_setting (v : Document) (key : String) (default : Document) :
    RejectsFor p (v.setting key default) :=
  v.rejectsFor_entries.bind fun _ => .ok _

end Document

namespace Spring

theorem Config.rejectsFor_build (mass damping stiffness overshootClamping : Document) :
    RejectsFor Rejection.OfSpring (Config.build mass damping stiffness overshootClamping) := by
  unfold Config.build
  refine (Document.rejectsFor_compareBy _ _ mass (.int 0)).bind fun _ => .ite ?_ ?_
  · refine (Document.rejectsFor_shown mass).bind fun got => ?_
    exact .reject ⟨got, .inl rfl⟩
  refine (Document.rejectsFor_compareBy _ _ stiffness (.int 0)).bind fun _ => .ite ?_ ?_
  · refine (Document.rejectsFor_shown stiffness).bind fun got => ?_
    exact .reject ⟨got, .inr (.inl rfl)⟩
  refine (Document.rejectsFor_compareBy _ _ damping (.int 0)).bind fun _ => .ite ?_ (.ok _)
  refine (Document.rejectsFor_shown damping).bind fun got => ?_
  exact .reject ⟨got, .inr (.inr rfl)⟩

theorem Presets.rejectsFor_load (configuration : Document) :
    RejectsFor Rejection.OfSpring (Presets.load configuration) := by
  unfold Presets.load
  refine (configuration.rejectsFor_setting _ _).bind fun springs => .ite ?_ (.ok _)
  refine springs.rejectsFor_entries.bind fun entries => .foldlM (fun presets entry => ?_) entries _
  unfold Presets.override Config.ofSettings
  refine RejectsFor.bind ?_ fun _ => .ok _
  refine (entry.2.rejectsFor_setting _ _).bind fun mass => ?_
  refine (entry.2.rejectsFor_setting _ _).bind fun damping => ?_
  refine (entry.2.rejectsFor_setting _ _).bind fun stiffness => ?_
  refine (entry.2.rejectsFor_setting _ _).bind fun overshootClamping => ?_
  exact Config.rejectsFor_build mass damping stiffness overshootClamping

end Spring

/-- A director is refused for the springs of its configuration and for nothing else. -/
theorem Director.rejectsFor_build (configuration : Document) :
    RejectsFor Rejection.OfSpring (Director.build configuration) := by
  unfold Director.build
  refine (Spring.Presets.rejectsFor_load _).bind fun _ => ?_
  refine (Document.rejectsFor_setting _ _ _).bind fun interaction => ?_
  exact (interaction.rejectsFor_setting _ _).bind fun _ => .ok _

end Directors

namespace CommandLine

/-! ## What is asked for -/

/-- The options ask for a list, a frame or an output. -/
def Options.Asks (o : Options) : Prop :=
  o.list = true ∨ o.frame ≠ .null ∨ path? o.output ≠ none

/-- The configuration that is asked for, with the step among the settings. -/
def settings (o : Options) (files : Files) : Except Fault Document := do
  let configuration ← configuration o files
  match o.step with
  | .null => return configuration
  | step => Configuration.withStep configuration step

/-- Arguments that are well formed and ask for something, what they ask for, and the configuration
that holds for it. -/
structure Request (arguments : List String) (files : Files) (o : Options) (c : Document) :
    Prop where
  parsed : Options.parse arguments = .ok o
  helpless : o.help = false
  asks : o.Asks
  step : o.step = .null ∨ Arith.le o.step (.int 0) = .ok false
  configured : settings o files = .ok c

/-- A director rejects what is asked for, which is the first rejected composition if compositions
are listed; behind the lines printed so far. -/
inductive Rejects (d : Director) (o : Options) (files : Files) : List String → Rejection → Prop
  | composition {cause : Rejection} (unlisted : o.list = false)
      (rejected : composition d o files = .error (.rejected cause)) : Rejects d o files [] cause
  | listing {before after : List String} {name : String} {lines : List (List String)}
      {cause : Rejection} (listed : o.list = true)
      (names : Template.names = before ++ name :: after)
      (shown : before.mapM (listing d) = .ok lines)
      (rejected : listing d name = .error (.rejected cause)) :
      Rejects d o files lines.flatten cause

variable {arguments : List String} {files : Files} {o : Options} {c : Document} {d : Director}

theorem Request.run_eq (h : Request arguments files o c) :
    run arguments files = perform o c files := by
  obtain ⟨configuration, hread, hconfigured⟩ := bind_eq_ok_iff.mp h.configured
  have hstep := h.step
  unfold run
  rw [h.parsed]
  simp only [h.helpless, Bool.false_eq_true, ↓reduceIte, hread, ok_bind]
  cases hgiven : o.step <;> rw [hgiven] at hconfigured hstep
  case null =>
    cases hconfigured
    rfl
  all_goals
    have hle := hstep.resolve_left nofun
    simp only [hle, hconfigured, ok_bind, Bool.false_eq_true, ↓reduceIte]

theorem Request.run_of_refused (h : Request arguments files o c) {fault : Fault}
    (hd : Director.build c = .error fault) : run arguments files = .error fault := by
  rw [h.run_eq, perform, hd]
  rfl

/-! ## Making compositions -/

/-- The outcome of what is rejected behind some lines. -/
def Outcome.rejected (lines : List String) (cause : Rejection) : Outcome :=
  { exitCode := 1, lines := lines ++ ["   [Render] Invalid composition: " ++ cause.message] }

theorem Outcome.rejectsFor_refuse (lines : List String) (fault : Fault) :
    RejectsFor (fun _ => False) (Outcome.refuse lines fault) := by
  cases fault with
  | rejected cause => exact .ok _
  | _ => exact .error (by simp)

/-- A rejected composition is reported behind those that were listed before it. -/
theorem listAll_of_rejected {before after : List String} {name : String}
    {shown : List (List String)} {cause : Rejection} (hshown : before.mapM (listing d) = .ok shown)
    (hrejected : listing d name = .error (.rejected cause)) (lines : List String) :
    listAll d lines (before ++ name :: after) = .ok (.rejected (lines ++ shown.flatten) cause) := by
  induction mapM_eq_ok_iff.mp hshown generalizing lines with
  | nil =>
    rw [List.nil_append, listAll, hrejected, List.flatten_nil, List.append_nil]
    rfl
  | cons hmore hrest ih =>
    rw [List.cons_append, listAll, hmore, List.flatten_cons, ← List.append_assoc]
    exact ih (mapM_eq_ok_iff.mpr hrest) _

/-- No rejection escapes where compositions are listed. -/
theorem rejectsFor_listAll (lines names : List String) :
    RejectsFor (fun _ => False) (listAll d lines names) := by
  induction names generalizing lines with
  | nil => exact .ok _
  | cons name names ih =>
    unfold listAll
    split
    · exact ih _
    · exact Outcome.rejectsFor_refuse lines _

theorem perform_of_rejected (hd : Director.build c = .ok d) (hasks : o.Asks) {lines : List String}
    {cause : Rejection} (h : Rejects d o files lines cause) :
    perform o c files = .ok (.rejected lines cause) := by
  unfold perform
  rw [hd, ok_bind]
  cases h with
  | listing hlist hnames hshown hrejected =>
    rw [if_pos hlist, hnames]
    exact listAll_of_rejected hshown hrejected []
  | composition hlist hrejected =>
    rw [hlist, if_neg Bool.false_ne_true]
    split
    case h_1 hframe houtput =>
      rcases hasks with hasks | hasks | hasks
      · rw [hlist] at hasks
        contradiction
      · exact absurd hframe hasks
      · exact absurd houtput hasks
    case h_2 =>
      rw [hrejected]
      rfl

/-- Once the director is set up, whatever is rejected while compositions are made is reported behind
the lines printed so far, with exit code one and nothing written. What stops the set-up stops the
run without a report, and that is so for a spring of the configuration; nothing else escapes where
compositions are listed. -/
theorem rejections_reported_once_directed (h : Request arguments files o c) :
    (∀ d lines cause, Director.build c = .ok d → Rejects d o files lines cause →
      run arguments files = .ok {
        exitCode := 1
        lines := lines ++ ["   [Render] Invalid composition: " ++ cause.message]
        frame := none
        written := none }) ∧
    (∀ fault, Director.build c = .error fault → run arguments files = .error fault) ∧
    (∀ cause, Director.build c = .error (.rejected cause) → cause.OfSpring) ∧
    (o.list = true → ∀ cause, run arguments files = .error (.rejected cause) →
      Director.build c = .error (.rejected cause)) := by
  refine ⟨fun d lines cause hd hrejects => ?_, fun fault hd => h.run_of_refused hd,
    Director.rejectsFor_build c, fun hlist cause hrun => ?_⟩
  · rw [h.run_eq]
    exact perform_of_rejected hd h.asks hrejects
  · cases hd : Director.build c with
    | error fault =>
      rw [h.run_of_refused hd] at hrun
      cases hrun
      rfl
    | ok d =>
      rw [h.run_eq, perform, hd, ok_bind, if_pos hlist] at hrun
      exact (rejectsFor_listAll [] Template.names cause hrun).elim

/-- A configuration that overrides a spring with one without mass. -/
def weightless : Document :=
  .mapping [("springs", .mapping [("smooth", .mapping [("mass", .int 0)])])]

/-- Files that all hold the same document. -/
def holding (document : Document) : Files :=
  { read := fun _ => .ok document
    isThere := fun _ => true
    makeDirectory := fun _ => .ok ()
    write := fun _ => .ok () }

theorem build_weightless :
    Director.build weightless = .error (.rejected (.massNotPositive "0")) := by
  have hshown : Arith.shown (Document.int 0) = .ok "0" :=
    Document.shown_int_eq_ok (Text.lt_unwritable (by decide))
  have hspring : ∀ damping stiffness overshootClamping : Document,
      Spring.Config.build (.int 0) damping stiffness overshootClamping =
        reject (.massNotPositive "0") := by
    intro damping stiffness overshootClamping
    rw [Spring.Config.build, show Arith.le (Document.int 0) (Arith.ofInt 0) = .ok true from rfl,
      hshown]
    rfl
  simp [Director.build, Spring.Presets.load, Spring.Presets.override, Spring.Config.ofSettings,
    weightless, Document.orElse, Document.isTrue, Document.setting, Document.entries,
    Document.lookup, hspring, reject]

theorem request_weightless :
    Request ["--config", "c.json", "--list"] (holding weightless)
      { config := .text "c.json", list := true } weightless where
  parsed := by with_unfolding_all rfl
  helpless := rfl
  asks := .inl rfl
  step := .inl rfl
  configured := rfl

/-- The rejection of a spring is not reported. -/
theorem weightless_not_reported :
    Director.build weightless = .error (.rejected (.massNotPositive "0")) ∧
      run ["--config", "c.json", "--list"] (holding weightless) =
        .error (.rejected (.massNotPositive "0")) ∧
      ¬ ∃ outcome, run ["--config", "c.json", "--list"] (holding weightless) = .ok outcome := by
  have hrun := request_weightless.run_of_refused build_weightless
  refine ⟨build_weightless, hrun, ?_⟩
  rintro ⟨outcome, houtcome⟩
  rw [hrun] at houtcome
  cases houtcome

theorem request_unknown :
    Request ["--composition", "nope", "--frame", "0"] (holding .null)
      { composition := .text "nope", frame := .int 0 } Configuration.standard where
  parsed := by with_unfolding_all rfl
  helpless := rfl
  asks := .inr (.inl nofun)
  step := .inl rfl
  configured := rfl

/-- A composition that is not known is reported. -/
theorem rejections_reported_once_directed_unknown :
    Request ["--composition", "nope", "--frame", "0"] (holding .null)
        { composition := .text "nope", frame := .int 0 } Configuration.standard ∧
      run ["--composition", "nope", "--frame", "0"] (holding .null) = .ok {
        exitCode := 1
        lines := ["   [Render] Invalid composition: " ++
          (Rejection.unknownComposition "nope" Template.names).message] } := by
  obtain ⟨hreported, -⟩ := rejections_reported_once_directed request_unknown
  obtain ⟨d, hd⟩ : ∃ d, Director.build Configuration.standard = .ok d := ⟨_, rfl⟩
  have hrejects : Rejects d { composition := .text "nope", frame := .int 0 } (holding .null) []
      (.unknownComposition "nope" Template.names) := by
    refine .composition rfl ?_
    cases hd
    rfl
  exact ⟨request_unknown, hreported d _ _ hd hrejects⟩

end CommandLine

end Showreel
