import Showreel.CommandLine.Run
import Showreel.Proofs.Timeline.Sampled

/-!
# Exported frames

An export samples a timeline as its settings ask for and writes what it found as one document, which
also tells the length of the timeline and the step. So it agrees with the other two samplers, the
one of frames and the one of channels.
-/

namespace Showreel

open Arith (ofInt)

namespace Export

variable {t : Timeline Document} {settings : ExportSettings} {e : Export}

/-- What is exported are the samples of the whole timeline. -/
theorem sample_eq_ok_iff : sample t settings = .ok e ↔
    ∃ frames, t.sampleFrames (.int 0) none settings.step = .ok frames ∧
      e = { timeline := t, settings, frames } := by
  have hnone : t.sampleFrames (.int 0) none settings.step =
      t.duration >>= fun stop => t.sampleFrames (.int 0) (some stop) settings.step := rfl
  unfold sample
  rw [hnone]
  cases t.duration with
  | error fault => simp
  | ok stop =>
    rw [ok_bind, ok_bind, bind_eq_ok_iff]
    simp only [pure_eq_ok, Except.ok.injEq, eq_comm]

theorem document_eq_ok_iff {n : Int} (hduration : e.timeline.duration = .ok (.int n))
    {document : Document} : e.document = .ok document ↔
      ∃ width height, e.settings.video.setting "width" (.int 1920) = .ok width ∧
        e.settings.video.setting "height" (.int 1080) = .ok height ∧
        document = .mapping
          [("composition", e.timeline.name), ("fps", e.timeline.fps), ("width", width),
            ("height", height), ("duration_in_frames", .int n), ("step", e.settings.step),
            ("frames", .list (e.frames.map fun frame => frame.snapshot.plain))] := by
  unfold Export.document
  rw [hduration]
  constructor
  · intro h
    obtain ⟨width, hwidth, h⟩ := bind_eq_ok_iff.mp h
    obtain ⟨height, hheight, h⟩ := bind_eq_ok_iff.mp h
    cases h
    exact ⟨width, height, hwidth, hheight, rfl⟩
  · rintro ⟨width, height, hwidth, hheight, rfl⟩
    rw [hwidth, ok_bind, hheight]
    rfl

end Export

/-- An export returns exactly if the settings can be read, the directory be made, the frames be
sampled and reported, and the file be written; what it writes is the document of the frames, in the
layout that is asked for. -/
theorem CommandLine.exportStates_eq_ok_iff {t : Timeline Document} {path : String} {c : Document}
    {files : Files} {lines : List String} {w : Written} :
    exportStates t path c files = .ok (lines, w) ↔ ∃ settings e sampling layout,
      ExportSettings.ofConfiguration c = .ok settings ∧ files.makeDirectoryOf path = .ok () ∧
      Export.sample t settings = .ok e ∧ e.report = .ok sampling ∧ e.document = .ok w.document ∧
      files.write path = .ok () ∧ Json.Layout.ofSetting settings.indent = .ok layout ∧
      Json.render layout w.document = .ok w.text ∧
      lines = [sampling, "   [Export] Done! Output: " ++ path] := by
  constructor
  · intro h
    obtain ⟨settings, hsettings, h⟩ := bind_eq_ok_iff.mp h
    obtain ⟨_, hdirectory, h⟩ := bind_eq_ok_iff.mp h
    obtain ⟨e, he, h⟩ := bind_eq_ok_iff.mp h
    obtain ⟨sampling, hsampling, h⟩ := bind_eq_ok_iff.mp h
    obtain ⟨document, hdocument, h⟩ := bind_eq_ok_iff.mp h
    obtain ⟨_, hfile, h⟩ := bind_eq_ok_iff.mp h
    obtain ⟨text, htext, h⟩ := bind_eq_ok_iff.mp h
    cases h
    obtain ⟨_, -, rfl⟩ := Export.sample_eq_ok_iff.mp he
    rw [Export.text, hdocument, ok_bind] at htext
    obtain ⟨layout, hlayout, hrender⟩ := bind_eq_ok_iff.mp htext
    exact ⟨settings, _, sampling, layout, hsettings, hdirectory, he, hsampling, hdocument, hfile,
      hlayout, hrender, rfl⟩
  · rintro ⟨settings, e, sampling, layout, hsettings, hdirectory, he, hsampling, hdocument, hfile,
      hlayout, hrender, rfl⟩
    have htext : e.text = .ok w.text := by
      obtain ⟨_, -, rfl⟩ := Export.sample_eq_ok_iff.mp he
      rw [Export.text, hdocument, ok_bind, hlayout, ok_bind, hrender]
    rw [exportStates, hsettings, ok_bind, hdirectory, ok_bind, he, ok_bind, hsampling, ok_bind,
      hdocument, ok_bind, hfile, ok_bind, htext]
    rfl

/-- What is written is the document of what is exported. -/
theorem CommandLine.exists_of_exportStates {t : Timeline Document} {path : String} {c : Document}
    {files : Files} {lines : List String} {w : Written}
    (h : exportStates t path c files = .ok (lines, w)) :
    ∃ settings e, ExportSettings.ofConfiguration c = .ok settings ∧
      Export.sample t settings = .ok e ∧ e.document = .ok w.document := by
  obtain ⟨settings, e, -, -, hsettings, -, he, -, hdocument, -⟩ := exportStates_eq_ok_iff.mp h
  exact ⟨settings, e, hsettings, he, hdocument⟩

namespace Timeline

/-- The samples of a timeline of some frames: a range is sampled frame by frame, the whole timeline
in steps of any size, and channels and exports hold what is sampled. An export is written exactly if
its settings can be read, its directory and its file made, and its report and its document told; its
text is then that document in the layout asked for. -/
structure SamplersAgree (t : Timeline Document) (n : Int) : Prop where
  duration : t.duration = .ok (.int n)
  range : ∀ (start stop : Int) (step : Nat), 1 ≤ step → ∀ frames,
    t.sampleFrames (.int start) (some (.int stop)) (.int step) = .ok frames ↔
      (frames.length : Int) = max 0 ⌈((stop - start : Int) : ℚ) / step⌉ ∧
        ∀ (k : Nat) frame, frames[k]? = some frame →
          t.frameAt (.int (start + k * step)) = .ok frame ∧
            t.clampFrame (.int (start + k * step)) = .ok frame.globalFrame
  whole : ∀ step : Nat, 1 ≤ step → ∀ frames,
    t.sampleFrames (.int 0) none (.int step) = .ok frames →
      (frames.length : Int) = ⌈(n : ℚ) / step⌉ ∧ 1 ≤ frames.length ∧
        frames.map ComposedFrame.globalFrame =
          (List.range frames.length).map (fun k : Nat => .int (k * step : Nat)) ∧
        (frames.map ComposedFrame.globalFrame).Nodup
  skipped : ∀ step : Nat, 1 ≤ step → ∀ all, t.sampleFrames (.int 0) none (.int 1) = .ok all →
    ∃ frames, t.sampleFrames (.int 0) none (.int step) = .ok frames ∧
      ∀ k : Nat, frames[k]? = all[k * step]?
  channel : ∀ getter values, t.sampleChannel getter none = .ok values ↔
    ∃ frames, t.sampleFrames (.int 0) none (.int 1) = .ok frames ∧
      frames.mapM (fun frame => getter frame >>= Arith.widen) = .ok values
  exported : ∀ (settings : ExportSettings) (step : Nat), settings.step = .int step → 1 ≤ step →
    ∀ document, (Export.sample t settings >>= Export.document) = .ok document ↔
      ∃ frames width height, t.sampleFrames (.int 0) none (.int step) = .ok frames ∧
        settings.video.setting "width" (.int 1920) = .ok width ∧
        settings.video.setting "height" (.int 1080) = .ok height ∧
        document = .mapping
          [("composition", t.name), ("fps", t.fps), ("width", width), ("height", height),
            ("duration_in_frames", .int n), ("step", .int step),
            ("frames", .list (frames.map fun frame => frame.snapshot.plain))]
  written : ∀ {path c files lines w},
    CommandLine.exportStates t path c files = .ok (lines, w) ↔ ∃ settings sampling layout,
      ExportSettings.ofConfiguration c = .ok settings ∧ files.makeDirectoryOf path = .ok () ∧
      files.write path = .ok () ∧ (Export.sample t settings >>= Export.report) = .ok sampling ∧
      (Export.sample t settings >>= Export.document) = .ok w.document ∧
      Json.Layout.ofSetting settings.indent = .ok layout ∧
      Json.render layout w.document = .ok w.text ∧
      lines = [sampling, "   [Export] Done! Output: " ++ path]

/-- All samplers of an accepted timeline agree, in steps of any size and over any range. -/
theorem samplers_agree {items : List (Item Document)} (hitems : ∀ item ∈ items, item.IsWhole)
    {fps name : Document} {t : Timeline Document} (hbuild : build items fps name = .ok t) :
    ∃ n, t.SamplersAgree n := by
  obtain ⟨l, h, -, -, -, -, -⟩ := follows_of_build hitems hbuild
  refine ⟨l.duration, h.duration_eq, fun start stop step hstep frames => ?_,
    fun step hstep frames hframes => ?_, fun step hstep all hall => ?_,
    fun getter values => sampleChannel_eq_ok_iff h.duration_eq getter,
    fun settings step hsettings hstep document => ?_,
    fun {path c files lines w} => ?_⟩
  · have hstep' : (step : Int) ≠ 0 := by omega
    rw [sampleFrames_eq_ok_iff hstep', Int.cast_natCast]
    refine and_congr_right' (forall₃_congr fun k frame _ => ?_)
    exact ⟨fun hframe => ⟨hframe, clampFrame_of_frameAt hframe⟩, And.left⟩
  · exact ⟨((h.sampleFrames_eq_ok_iff hstep).mp hframes).1, h.length_pos hstep hframes,
      h.globalFrames_eq hstep hframes, h.globalFrames_nodup hstep hframes⟩
  · obtain ⟨frames, hframes⟩ := h.exists_sample hstep hall
    exact ⟨frames, hframes, h.getElem?_sample hstep hall hframes⟩
  · have hdocument := fun frames : List (ComposedFrame Document) =>
      @Export.document_eq_ok_iff { timeline := t, settings, frames } l.duration h.duration_eq
        document
    rw [bind_eq_ok_iff]
    simp only [Export.sample_eq_ok_iff, hsettings]
    constructor
    · rintro ⟨_, ⟨frames, hframes, rfl⟩, he⟩
      obtain ⟨width, height, hwidth, hheight, heq⟩ := (hdocument frames).mp he
      rw [hsettings] at heq
      exact ⟨frames, width, height, hframes, hwidth, hheight, heq⟩
    · rintro ⟨frames, width, height, hframes, hwidth, hheight, heq⟩
      rw [← hsettings] at heq
      refine ⟨_, ⟨frames, hframes, rfl⟩, ?_⟩
      exact (hdocument frames).mpr ⟨width, height, hwidth, hheight, heq⟩
  · rw [CommandLine.exportStates_eq_ok_iff]
    constructor
    · rintro ⟨settings, e, sampling, layout, hsettings, hdirectory, he, hsampling, hdocument, hfile,
        htext⟩
      exact ⟨settings, sampling, layout, hsettings, hdirectory, hfile,
        by rw [he, ok_bind, hsampling], by rw [he, ok_bind, hdocument], htext⟩
    · rintro ⟨settings, sampling, layout, hsettings, hdirectory, hfile, hsampling, hdocument, htext⟩
      obtain ⟨e, he, hsampling⟩ := bind_eq_ok_iff.mp hsampling
      rw [he, ok_bind] at hdocument
      exact ⟨settings, e, sampling, layout, hsettings, hdirectory, he, hsampling, hdocument, hfile,
        htext⟩

/-- Nine frames in steps of four: the last step is not a whole one. -/
theorem samplers_agree_shortMiddle :
    (∀ item ∈ shortMiddle, item.IsWhole) ∧
      ∃ t, build shortMiddle (.int 30) (.text "cards") = .ok t ∧ t.SamplersAgree 9 ∧
        ∃ frames, t.sampleFrames (.int 0) none (.int 4) = .ok frames ∧
          frames.map ComposedFrame.globalFrame = [.int 0, .int 4, .int 8] := by
  have hrun : (do
      let t ← build shortMiddle (.int 30) (.text "cards")
      let frames ← t.sampleFrames (.int 0) none (.int 4)
      return (← t.duration, frames.map ComposedFrame.globalFrame)) =
        .ok (.int 9, [.int 0, .int 4, .int 8]) := rfl
  obtain ⟨t, hbuild, hrun⟩ := bind_eq_ok_iff.mp hrun
  obtain ⟨frames, hframes, hrun⟩ := bind_eq_ok_iff.mp hrun
  obtain ⟨duration, hduration, hrun⟩ := bind_eq_ok_iff.mp hrun
  obtain ⟨rfl, hglobal⟩ := Prod.mk.inj (Except.ok.inj hrun)
  obtain ⟨n, hsamplers⟩ := samplers_agree shortMiddle_isWhole hbuild
  obtain rfl : n = 9 :=
    Document.int.inj (Except.ok.inj (hsamplers.duration.symm.trans hduration))
  exact ⟨shortMiddle_isWhole, t, hbuild, hsamplers, frames, hframes, hglobal⟩

end Timeline

end Showreel
