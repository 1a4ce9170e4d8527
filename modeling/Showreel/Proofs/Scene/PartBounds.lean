import Mathlib.Order.Interval.Set.Basic
import Showreel.Proofs.Curve.Rational
import Showreel.Proofs.Scene.Parts
import Showreel.Proofs.Scene.Records

/-!
# Bounds of the parts of scenes

Opacities of a scene are ramps that are held at their ends, or the part of a spring's progress
between zero and one, so that they are shares. Ripples grow and fade along such ramps too. The size
of an element follows its spring beyond the end, but is held at one half in front of the start.
Arithmetic is exact here, and a spring is whatever answers with a number.
-/

namespace Showreel

open Arith (ofInt)

/-! ## Fields within bounds -/

namespace Snapshot

/-- A computed number of a set. -/
def IsIn (range : Set ℚ) (x : Snapshot ℚ) : Prop := ∃ y ∈ range, x = .number y

/-- The name of a field that holds an opacity. -/
def IsOpacity (key : String) : Prop := key = "opacity" ∨ "_opacity".toList <:+ key.toList

instance : DecidablePred IsOpacity := fun _ => inferInstanceAs (Decidable (_ ∨ _))

/-- What is asked of a field of a record of some kind. -/
structure FieldInBounds (kind key : String) (x : Snapshot ℚ) : Prop where
  opacity : IsOpacity key → x.IsIn (Set.Icc 0 1)
  rippleRadius : key = "ripple_radius" → x.IsIn (Set.Icc 0 20)
  rippleOpacity : key = "ripple_opacity" → x.IsIn (Set.Icc 0 (1 / 2))
  scale : kind = "Entrance" → key = "scale" → x.IsIn (Set.Ici (1 / 2))

/-- All fields of a record keep their bounds. -/
def InBounds (kind : String) (fields : List (String × Snapshot ℚ)) : Prop :=
  ∀ field ∈ fields, FieldInBounds kind field.1 field.2

@[simp] theorem isIn_number {range : Set ℚ} {y : ℚ} : (number y).IsIn range ↔ y ∈ range := by
  simp [IsIn]

theorem fieldInBounds_iff {kind key : String} {x : Snapshot ℚ} : FieldInBounds kind key x ↔
    (IsOpacity key → x.IsIn (Set.Icc 0 1)) ∧ (key = "ripple_radius" → x.IsIn (Set.Icc 0 20)) ∧
      (key = "ripple_opacity" → x.IsIn (Set.Icc 0 (1 / 2))) ∧
      (kind = "Entrance" → key = "scale" → x.IsIn (Set.Ici (1 / 2))) :=
  ⟨fun h => ⟨h.1, h.2, h.3, h.4⟩, fun h => ⟨h.1, h.2.1, h.2.2.1, h.2.2.2⟩⟩

end Snapshot

open Snapshot

/-- A number between zero and one. -/
def IsShare (x : ℚ) : Prop := 0 ≤ x ∧ x ≤ 1

theorem isShare_zero : IsShare 0 := ⟨le_rfl, zero_le_one⟩

theorem isShare_one : IsShare 1 := ⟨zero_le_one, le_rfl⟩

/-! ## Ramps and fades -/

namespace Phase

/-- A ramp between shares at whole frames. -/
theorem exists_rampAt_isShare {frames values : List Int} (h : frames.Pairwise (· ≤ ·) ∧
    frames.length = values.length ∧ 2 ≤ frames.length ∧ ∀ v ∈ values, 0 ≤ v ∧ v ≤ 1) (x : ℚ) :
    ∃ y, rampAt x frames values = .ok y ∧ IsShare y := by
  have hsorted : (frames.map (ofInt : Int → ℚ)).Pairwise (· ≤ ·) :=
    List.pairwise_map.mpr (h.1.imp fun hle => by simpa using hle)
  have hvalues : ∀ v ∈ values.map (ofInt : Int → ℚ), 0 ≤ v ∧ v ≤ 1 := by
    intro v hv
    obtain ⟨n, hn, rfl⟩ := List.mem_map.mp hv
    rw [Arith.ofInt_rat]
    exact_mod_cast h.2.2.2 n hn
  exact exists_ramp_mem hsorted (by simpa using h.2.1) (by simpa using h.2.2.1) hvalues x

theorem exists_during_rat (x : ℚ) (start stop : Int) : ∃ b, during x start stop = .ok b := by
  unfold during Arith.between
  rw [Arith.le_rat, ok_bind, Arith.lt_rat]
  split <;> exact ⟨_, rfl⟩

theorem exists_through_rat (x : ℚ) (first last : Int) : ∃ b, through x first last = .ok b := by
  unfold through since
  rw [Arith.le_rat, ok_bind, Arith.le_rat]
  split <;> exact ⟨_, rfl⟩

end Phase

namespace Entrance

/-- The opacity is a share, and the element has at least half its size. -/
structure IsBounded (e : Entrance ℚ) : Prop where
  opacity : IsShare e.opacity
  scale : 1 / 2 ≤ e.scale

@[simp] theorem inBounds_iff {e : Entrance ℚ} :
    e.snapshot.AllRecords InBounds ↔ e.IsBounded := by
  have hiff : e.snapshot.AllRecords InBounds ↔ IsShare e.opacity ∧ 1 / 2 ≤ e.scale := by
    simp +decide [snapshot, InBounds, fieldInBounds_iff, IsShare]
  exact hiff.trans ⟨fun h => ⟨h.1, h.2⟩, fun h => ⟨h.1, h.2⟩⟩

/-- What is not scaled has its full size. -/
theorem isBounded_of_isShare {opacity moveX moveY : ℚ} (h : IsShare opacity) :
    IsBounded { opacity, moveX, moveY } := by
  refine ⟨h, ?_⟩
  dsimp only
  rw [Arith.one_rat]
  norm_num

theorem exists_fadeIn_isBounded {start length : ℚ} (h : 0 ≤ length) (direction : FadeDirection)
    (x : ℚ) : ∃ e, fadeIn x start length (.known direction) = .ok e ∧ e.IsBounded := by
  have hsorted : [start, start + length].Pairwise (· ≤ ·) := by simpa using h
  have hmove : ∀ v₀ v₁ : ℚ, ∃ y, ramp x [start, start + length] [v₀, v₁] = .ok y := fun v₀ v₁ =>
    exists_interpolate_rat hsorted (by rfl) le_rfl .clamp .clamp x
  obtain ⟨opacity, hopacity, hshare⟩ : ∃ y,
      ramp x [start, start + length] [ofInt 0, ofInt 1] = .ok y ∧ IsShare y :=
    exists_ramp_mem hsorted (by rfl) le_rfl (by simp) x
  obtain ⟨rising, hrising⟩ := hmove (ofInt fadeDistance) (ofInt 0)
  obtain ⟨dropping, hdropping⟩ := hmove (ofInt (-fadeDistance)) (ofInt 0)
  unfold fadeIn
  rw [Arith.add_rat, ok_bind]
  dsimp only
  rw [hopacity, ok_bind]
  cases direction with
  | up => exact ⟨_, by rw [hrising]; rfl, isBounded_of_isShare hshare⟩
  | down => exact ⟨_, by rw [hdropping]; rfl, isBounded_of_isShare hshare⟩
  | none => exact ⟨_, rfl, isBounded_of_isShare hshare⟩

theorem exists_fadeAt_isBounded {length : Int} (h : 0 ≤ length) (start : Int)
    (direction : FadeDirection) (x : ℚ) :
    ∃ e, Phase.fadeAt x start length direction = .ok e ∧ e.IsBounded :=
  exists_fadeIn_isBounded (by simpa using h) direction x

/-! ## Pops and slides -/

theorem exists_popped_isBounded (progress : ℚ) :
    ∃ e, popped progress = .ok e ∧ e.IsBounded := by
  have hsaturated := Arith.saturate_rat progress
  refine ⟨_, by rw [popped, hsaturated, ok_bind, rampOnward_rat]; rfl, ?_, ?_⟩
  · exact Arith.saturate_rat_mem hsaturated
  · dsimp only
    rw [Arith.half_rat, Arith.ofInt_rat]
    have hpositive : 0 ≤ max 0 progress := le_max_left _ _
    push_cast
    linarith

theorem exists_slid_isBounded (side : SlideDirection) (progress : ℚ) :
    ∃ e, slid side progress = .ok e ∧ e.IsBounded := by
  have hsaturated := Arith.saturate_rat progress
  obtain ⟨dx, dy, hoffset⟩ : ∃ dx dy, side.offset = (dx, dy) := ⟨_, _, rfl⟩
  unfold slid
  rw [hoffset]
  dsimp only
  rw [hsaturated, ok_bind, rampOnward_rat, ok_bind, rampOnward_rat]
  exact ⟨_, rfl, isBounded_of_isShare (Arith.saturate_rat_mem hsaturated)⟩

end Entrance

/-- At a frame the motion is somewhere, unless it is to be stretched to no length. -/
def Spring.Motion.AnswersAt (m : Motion ℚ) (f : Int) : Prop :=
  ∀ (delay : Int) (length : Option ℚ), (∀ l ∈ length, 0 < l) →
    ∃ x, m.progress (ofInt delay) length (ofInt f) = .ok x

/-- At a frame all motions on a stage are somewhere. -/
structure Stage.AnswersAt [Spring.Animated ℚ] (stage : Stage ℚ) (f : Int) : Prop where
  smooth : stage.smooth.AnswersAt f
  motion : ∀ config, (Spring.Animated.motion stage.fps config).AnswersAt f

theorem Stage.settling_pos : ∀ l ∈ (settling : Option ℚ), 0 < l := by
  intro l hl
  obtain rfl : (23 : ℚ) = l := by simpa [settling, settleFrames] using hl
  norm_num

theorem Entrance.scaleIn_ensures {needs : Prop} {m : Spring.Motion ℚ} {start x : ℚ}
    (hm : needs → ∃ p, m.progress start none x = .ok p) :
    Ensures needs IsBounded (scaleIn m start x) :=
  .bind ⟨fun _ _ => trivial, hm⟩ fun progress _ => .of_exists (exists_popped_isBounded progress)

section Motions

variable {needs : Prop} {m : Spring.Motion ℚ} {f : Int}

theorem Spring.Motion.progress_ensures (hm : needs → m.AnswersAt f) (delay : Int)
    {length : Option ℚ} (hlength : ∀ l ∈ length, 0 < l) :
    Ensures needs (fun _ => True) (m.progress (ofInt delay) length (ofInt f)) :=
  ⟨fun _ _ => trivial, fun hneeds => hm hneeds delay length hlength⟩

theorem Entrance.slideIn_ensures (hm : needs → m.AnswersAt f) (side : SlideDirection)
    (start : Int) {length : Option ℚ} (hlength : ∀ l ∈ length, 0 < l) :
    Ensures needs IsBounded (slideIn m (.known side) (ofInt start) length (ofInt f)) :=
  (m.progress_ensures hm start hlength).bind fun progress _ =>
    .of_exists (exists_slid_isBounded side progress)

end Motions

/-! ## Pointers -/

namespace Pointer

/-- The ripple is neither larger nor more opaque than at its most. -/
structure IsBounded (p : Pointer ℚ) : Prop where
  radius : 0 ≤ p.rippleRadius ∧ p.rippleRadius ≤ 20
  opacity : 0 ≤ p.rippleOpacity ∧ p.rippleOpacity ≤ 1 / 2

@[simp] theorem inBounds_iff {p : Pointer ℚ} : p.snapshot.AllRecords InBounds ↔ p.IsBounded := by
  have hhalf : p.rippleOpacity ≤ 1 / 2 → p.rippleOpacity ≤ 1 := fun h => h.trans (by norm_num)
  have hiff : p.snapshot.AllRecords InBounds ↔
      (0 ≤ p.rippleRadius ∧ p.rippleRadius ≤ 20) ∧ IsShare p.rippleOpacity ∧
        0 ≤ p.rippleOpacity ∧ p.rippleOpacity ≤ 1 / 2 := by
    simp +decide [snapshot, InBounds, fieldInBounds_iff, flag, IsShare]
  exact hiff.trans ⟨fun h => ⟨h.1, h.2.2⟩,
    fun h => ⟨h.radius, ⟨h.opacity.1, hhalf h.opacity.2⟩, h.opacity⟩⟩

theorem isBounded_hidden : ({} : Pointer ℚ).IsBounded := by
  constructor
  · dsimp only
    rw [Arith.zero_rat]
    norm_num
  · dsimp only
    rw [Arith.zero_rat]
    norm_num

theorem blinkCycle_ne_zero : (ofInt blinkCycle : ℚ) ≠ 0 := by
  rw [Arith.ofInt_rat, blinkCycle]
  norm_num

theorem exists_ripple_isBounded (x : ℚ) (clicking : Bool) :
    ∃ radius opacity, ripple x clicking = .ok (radius, opacity) ∧ (0 ≤ radius ∧ radius ≤ 20) ∧
      0 ≤ opacity ∧ opacity ≤ 1 / 2 := by
  cases clicking with
  | false =>
    refine ⟨0, 0, ?_, by norm_num, by norm_num⟩
    rw [ripple, if_neg Bool.false_ne_true, Arith.zero_rat]
  | true =>
    obtain ⟨phase, hphase⟩ : ∃ phase, Arith.modulo x (ofInt blinkCycle) = .ok phase :=
      ⟨_, Arith.modulo_rat blinkCycle_ne_zero x⟩
    have hsorted : [(ofInt 0 : ℚ), ofInt 8].Pairwise (· ≤ ·) := by simp
    obtain ⟨radius, hradius, hradiusMem⟩ :
        ∃ y, ramp phase [ofInt 0, ofInt 8] [ofInt 0, ofInt 20] = .ok y ∧ 0 ≤ y ∧ y ≤ 20 :=
      exists_ramp_mem hsorted (by rfl) le_rfl (by simp) phase
    obtain ⟨opacity, hopacity, hopacityMem⟩ :
        ∃ y, ramp phase [ofInt 0, ofInt 8] [0.5, ofInt 0] = .ok y ∧ 0 ≤ y ∧ y ≤ 1 / 2 := by
      rw [Arith.half_rat]
      exact exists_ramp_mem hsorted (by rfl) le_rfl (by simp) phase
    refine ⟨radius, opacity, ?_, hradiusMem, hopacityMem⟩
    rw [ripple, if_pos rfl, hphase, ok_bind, hradius, ok_bind, hopacity]
    rfl

theorem exists_coordinate {frames values : List ℚ} (hsorted : frames.Pairwise (· ≤ ·))
    (hcounts : frames.length = values.length) (htwo : 2 ≤ frames.length) (x : ℚ) :
    ∃ c y, Waypoints.coordinate frames values = .ok c ∧ c.valueAt x = .ok y := by
  have h : Curve.IsOrdered { breakpoints := frames, values } := ⟨hcounts, htwo, hsorted⟩
  obtain ⟨y, hy⟩ := h.exists_valueAt (fun s _ _ => ⟨s, rfl⟩) x
  exact ⟨_, y, h.build_eq, hy⟩

theorem exists_onPath_isBounded {path : List (String × Int × Int × Int)} (h : IsPath path)
    (x : ℚ) (visible clicking : Bool) :
    ∃ p, onPath x path visible clicking = .ok p ∧ p.IsBounded := by
  let stops : List (Stop ℚ) := path.map fun p =>
    { name := .text p.1, frame := ofInt p.2.1, x := ofInt p.2.2.1, y := ofInt p.2.2.2 }
  have hsorted : (stops.map Stop.frame).Pairwise (· ≤ ·) := by
    rw [List.map_map]
    exact List.pairwise_map.mpr ((List.pairwise_map.mp h.sorted).imp fun hle => by simpa using hle)
  have htwo : 2 ≤ (stops.map Stop.frame).length := by simpa [stops] using h.two
  have hcounts : ∀ coordinate : Stop ℚ → ℚ,
      (stops.map Stop.frame).length = (stops.map coordinate).length := by simp
  obtain ⟨horizontal, x', hhorizontal, hx'⟩ :=
    exists_coordinate hsorted (hcounts Stop.x) htwo x
  obtain ⟨vertical, y', hvertical, hy'⟩ :=
    exists_coordinate hsorted (hcounts Stop.y) htwo x
  obtain ⟨radius, opacity, hripple, hradius, hopacity⟩ := exists_ripple_isBounded x clicking
  have hthrough : Waypoints.through path =
      .ok { stops := stops.map some, horizontal, vertical } := by
    change Waypoints.build stops = _
    unfold Waypoints.build
    rw [hhorizontal, ok_bind, hvertical]
    rfl
  unfold onPath
  rw [hthrough, ok_bind]
  cases visible with
  | false => exact ⟨_, rfl, isBounded_hidden⟩
  | true =>
    unfold along Waypoints.position
    dsimp only
    rw [hx', ok_bind, hy', ok_bind, pure_eq_ok, ok_bind]
    dsimp only
    rw [show (Document.flag clicking).isTrue = clicking from rfl, hripple]
    exact ⟨_, rfl, hradius, hopacity⟩

end Pointer

/-! ## Typed text -/

theorem Typing.exists_revealed_rat (text : String) (start : ℚ) {per : ℚ} (hper : per ≠ 0) (x : ℚ) :
    ∃ n, revealed x (.text text) per start = .ok n := by
  unfold revealed
  rw [Arith.lt_rat, ok_bind]
  split
  · exact ⟨0, rfl⟩
  · rw [Arith.sub_rat, ok_bind, Arith.div_rat hper, ok_bind, Arith.floor_rat, ok_bind,
      size_text, ok_bind]
    exact ⟨_, rfl⟩

namespace TypedField

@[simp] theorem inBounds_iff {field : TypedField ℚ} :
    field.snapshot.AllRecords InBounds ↔ IsShare field.caretOpacity := by
  simp +decide [snapshot, InBounds, fieldInBounds_iff, flag, count, IsShare]

theorem exists_caretOpacityAt_isShare (x : ℚ) :
    ∃ y, caretOpacityAt x = .ok y ∧ IsShare y := by
  unfold caretOpacityAt
  rw [Arith.modulo_rat Pointer.blinkCycle_ne_zero, ok_bind]
  exact @Phase.exists_rampAt_isShare [0, 4, 8, 12, 16] [1, 1, 0, 0, 1] (by decide) _

theorem exists_caretShown_rat (x start finish : ℚ) (complete : Bool) :
    ∃ b, caretShown x start finish complete = .ok b := by
  unfold caretShown
  rw [Arith.le_rat, ok_bind]
  split
  · split
    · rw [Arith.sub_rat, ok_bind, Arith.lt_rat]
      exact ⟨_, rfl⟩
    · exact ⟨_, rfl⟩
  · exact ⟨_, rfl⟩

theorem exists_typedAt_isShare (text : String) (start : ℚ) {per : ℚ} (hper : per ≠ 0)
    (showCaret : Bool) (x : ℚ) : ∃ field,
      typedAt x (.text text) start per (.flag showCaret) = .ok field ∧
        IsShare field.caretOpacity := by
  obtain ⟨chars, hchars⟩ := Typing.exists_revealed_rat text start hper x
  obtain ⟨finish, hfinish⟩ : ∃ y, Typing.finish (.text text) per start = .ok y := ⟨_, rfl⟩
  obtain ⟨caret, hcaret⟩ := exists_caretShown_rat x start finish
    (decide ((text.length : Int) ≤ chars))
  obtain ⟨opacity, hopacity, hshare⟩ := exists_caretOpacityAt_isShare x
  obtain ⟨value, hvalue⟩ : ∃ v, (Document.text text).front chars.toNat = .ok v := ⟨_, rfl⟩
  unfold typedAt
  rw [hchars, ok_bind, Typing.size_text, ok_bind, hfinish, ok_bind]
  dsimp only
  rw [hcaret, hvalue, hopacity, Arith.zero_rat]
  cases showCaret with
  | false => exact ⟨_, rfl, isShare_zero⟩
  | true =>
    cases caret with
    | false => exact ⟨_, rfl, isShare_zero⟩
    | true => exact ⟨_, rfl, hshare⟩

end TypedField

/-! ## Views that trade places -/

theorem CrossFade.swapAt_ensures {needs : Prop} {start stop : ℚ} (h : start ≤ stop)
    (threshold x : ℚ) : Ensures needs
      (fun c => IsShare c.outgoingOpacity ∧ IsShare c.incomingOpacity)
      (swapAt x start stop threshold) := by
  have hsorted : [start, stop].Pairwise (· ≤ ·) := by simpa using h
  unfold swapAt
  refine .bind (.of_exists (exists_ramp_mem hsorted (by rfl) le_rfl
    (show ∀ v ∈ [ofInt 1, ofInt 0], (0 : ℚ) ≤ v ∧ v ≤ 1 by simp) x)) fun outgoing houtgoing => ?_
  refine .bind (.of_exists (exists_ramp_mem hsorted (by rfl) le_rfl
    (show ∀ v ∈ [ofInt 0, ofInt 1], (0 : ℚ) ≤ v ∧ v ≤ 1 by simp) x)) fun incoming hincoming => ?_
  refine .bind (.of_exists_ok ⟨_, Arith.le_rat _ _⟩) fun _ _ => ?_
  refine .choice_bind (.of_exists_ok ⟨_, Arith.lt_rat _ _⟩) (.of_exists_ok ⟨_, rfl⟩) fun _ _ => ?_
  refine .bind (.of_exists_ok ⟨_, Arith.lt_rat _ _⟩) fun _ _ => ?_
  refine .choice_bind (.of_exists_ok ⟨_, Arith.lt_rat _ _⟩) (.of_exists_ok ⟨_, rfl⟩) fun _ _ => ?_
  exact .ok ⟨houtgoing, hincoming⟩

end Showreel
