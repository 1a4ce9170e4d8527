import Showreel.Proofs.Curve
import Showreel.Proofs.Effect
import Showreel.Scene.CrossFade
import Showreel.Scene.Phase
import Showreel.Scene.TypedField

/-!
# Parts of scenes at whole frames

Scenes are put together from ramps between whole frames, fades, pointers on their way, text being
typed and views that trade places. At a whole frame each of these yields what it shows.
-/

namespace Showreel

open Arith (ofInt)

/-! ## Phases -/

namespace Phase

section Tests

variable {α : Type} [Arith α] [Arith.Whole α] (f : Int)

@[simp] theorem since_ofInt (start : Int) :
    since (ofInt f : α) start = .ok (decide (start ≤ f)) := Arith.Whole.le_ofInt start f

@[simp] theorem before_ofInt (stop : Int) :
    before (ofInt f : α) stop = .ok (decide (f < stop)) := Arith.Whole.lt_ofInt f stop

@[simp] theorem during_ofInt (start stop : Int) :
    during (ofInt f : α) start stop = .ok (decide (start ≤ f ∧ f < stop)) :=
  Arith.between_ofInt f start stop

@[simp] theorem through_ofInt (first last : Int) :
    through (ofInt f : α) first last = .ok (decide (first ≤ f ∧ f ≤ last)) := by
  rw [through, since_ofInt, ok_bind, Arith.Whole.le_ofInt]
  by_cases h : first ≤ f
  · simp [h]
  · simp [h]

end Tests

theorem exists_rampAt {frames values : List Int} (h : frames.Pairwise (· ≤ ·) ∧
    frames.length = values.length ∧ 2 ≤ frames.length ∧ ∀ n ∈ values, n.natAbs < 2 ^ 63) (f : Int) :
    ∃ x, rampAt (ofInt f) frames values = .ok (Document.double x) :=
  (Keyframes.ofInts h.1 h.2.1 h.2.2.1 h.2.2.2).exists_ramp f

/-- A ramp between two frames. -/
theorem exists_ramp_pair {first last : Int} (h : first ≤ last) (v₀ v₁ : Document)
    (hv₀ : v₀.IsWithin 63) (hv₁ : v₁.IsWithin 63) (f : Int) :
    ∃ x, ramp (ofInt f) [ofInt first, ofInt last] [v₀, v₁] = .ok (Document.double x) := by
  have hkeys : Keyframes [first, last] [v₀, v₁] := by
    refine ⟨by simpa using h, rfl, le_rfl, ?_⟩
    simp only [List.forall_mem_cons]
    exact ⟨hv₀, hv₁, by simp⟩
  exact hkeys.exists_ramp f

theorem exists_fadeAt {length : Int} (h : 0 ≤ length) (f start : Int)
    (direction : FadeDirection) :
    ∃ e : Entrance Document, fadeAt (ofInt f) start length direction = .ok e := by
  have hwindow : start ≤ start + length := by omega
  have hramp : ∀ m n : Int, m.natAbs < 2 ^ 63 → n.natAbs < 2 ^ 63 →
      ∃ x, ramp (ofInt f) [ofInt start, ofInt (start + length)] [ofInt m, ofInt n] =
        .ok (Document.double x) :=
    fun m n hm hn => exists_ramp_pair hwindow _ _ (.int hm) (.int hn) f
  obtain ⟨opacity, hopacity⟩ := hramp 0 1 (by decide) (by decide)
  unfold fadeAt Entrance.fadeIn
  rw [Arith.Whole.add_ofInt, ok_bind]
  dsimp only
  rw [hopacity, ok_bind]
  cases direction with
  | up =>
    obtain ⟨moveY, hmoveY⟩ := hramp Entrance.fadeDistance 0 (by decide) (by decide)
    exact ⟨_, by rw [hmoveY]; rfl⟩
  | down =>
    obtain ⟨moveY, hmoveY⟩ := hramp (-Entrance.fadeDistance) 0 (by decide) (by decide)
    exact ⟨_, by rw [hmoveY]; rfl⟩
  | none => exact ⟨_, rfl⟩

end Phase

/-! ## Pointers -/

namespace Pointer

theorem modulo_ofInt {n : Int} (hn : n ≠ 0) (f : Int) :
    Arith.modulo (ofInt f : Document) (ofInt n) = .ok (ofInt (Int.fmod f n)) := by
  change Number.document <$> Number.modulo (.int f) (.int n) = _
  rw [Number.modulo, if_neg hn]
  rfl

theorem exists_ripple (f : Int) (clicking : Bool) :
    ∃ r, ripple (ofInt f : Document) clicking = .ok r := by
  cases clicking with
  | false => exact ⟨_, rfl⟩
  | true =>
    have hcycle : (0 : Int) ≤ 8 := by decide
    obtain ⟨radius, hradius⟩ := Phase.exists_ramp_pair hcycle (ofInt 0) (ofInt 20)
      (.int (by decide)) (.int (by decide)) (Int.fmod f blinkCycle)
    obtain ⟨opacity, hopacity⟩ := Phase.exists_ramp_pair hcycle 0.5 (ofInt 0)
      (.double _) (.int (by decide)) (Int.fmod f blinkCycle)
    unfold ripple
    rw [if_pos rfl, modulo_ofInt (by decide), ok_bind, hradius, ok_bind, hopacity]
    exact ⟨_, rfl⟩

/-- Stops whose frames and coordinates are keyframes make waypoints. -/
theorem build_waypoints {frames : List Int} {xs ys : List Document} (hx : Keyframes frames xs)
    (hy : Keyframes frames ys) {stops : List (Stop Document)}
    (hframes : stops.map Stop.frame = frames.map ofInt) (hxs : stops.map Stop.x = xs)
    (hys : stops.map Stop.y = ys) :
    Waypoints.build stops = .ok {
      stops := stops.map some, horizontal := Keyframes.held frames xs
      vertical := Keyframes.held frames ys } := by
  unfold Waypoints.build Waypoints.coordinate
  rw [hframes, hxs, hys, hx.build_eq, ok_bind, hy.build_eq, ok_bind, pure_eq_ok]

/-- Stops in the order of their frames, at places that are not too far away. -/
structure IsPath (path : List (String × Int × Int × Int)) : Prop where
  sorted : (path.map fun stop => stop.2.1).Pairwise (· ≤ ·)
  two : 2 ≤ path.length
  within : ∀ stop ∈ path, stop.2.2.1.natAbs < 2 ^ 63 ∧ stop.2.2.2.natAbs < 2 ^ 63

theorem exists_onPath {path : List (String × Int × Int × Int)} (h : IsPath path) (f : Int)
    (visible clicking : Bool) :
    ∃ p : Pointer Document, onPath (ofInt f) path visible clicking = .ok p := by
  have hx : Keyframes (path.map fun stop => stop.2.1)
      ((path.map fun stop => stop.2.2.1).map ofInt) :=
    .ofInts h.sorted (by simp) (by simpa using h.two)
      (List.forall_mem_map.mpr fun stop hstop => (h.within stop hstop).1)
  have hy : Keyframes (path.map fun stop => stop.2.1)
      ((path.map fun stop => stop.2.2.2).map ofInt) :=
    .ofInts h.sorted (by simp) (by simpa using h.two)
      (List.forall_mem_map.mpr fun stop hstop => (h.within stop hstop).2)
  obtain ⟨x, hx'⟩ := hx.exists_valueAt f
  obtain ⟨y, hy'⟩ := hy.exists_valueAt f
  obtain ⟨r, hr⟩ := exists_ripple f clicking
  unfold onPath Waypoints.through
  rw [build_waypoints hx hy (by simp) (by simp) (by simp), ok_bind]
  cases visible with
  | false => exact ⟨_, rfl⟩
  | true =>
    unfold along Waypoints.position
    dsimp only
    rw [hx', ok_bind, hy', ok_bind, pure_eq_ok, ok_bind]
    dsimp only
    rw [show (Document.flag clicking).isTrue = clicking from rfl, hr]
    exact ⟨_, rfl⟩

end Pointer

/-! ## Typed text -/

namespace Typing

variable {f start per : Int} (text : String)

theorem size_text : (Document.text text).size = .ok text.length := by
  show Except.ok (text.toList.map Document.ofChar).length = _
  rw [List.length_map, String.length_toList]

/-- How much of a text is shown is rounded from a quotient of integers. -/
theorem exists_revealed (h : (f - start).natAbs < per.natAbs * 2 ^ 64) :
    ∃ n, revealed (ofInt f : Document) (.text text) (ofInt per) (ofInt start) = .ok n := by
  obtain ⟨k, hk⟩ := Document.exists_floor_div h
  obtain ⟨q, hq, hfloor⟩ := bind_eq_ok_iff.mp hk
  have hq' : Arith.div (ofInt (f - start) : Document) (ofInt per) = .ok q := hq
  unfold revealed
  rw [Arith.Whole.lt_ofInt, ok_bind]
  split
  · exact ⟨0, rfl⟩
  · rw [Arith.Whole.sub_ofInt, ok_bind, hq', ok_bind, hfloor, ok_bind, size_text, ok_bind]
    exact ⟨_, rfl⟩

theorem exists_shownText (h : (f - start).natAbs < per.natAbs * 2 ^ 64) :
    ∃ shown, shownText (ofInt f : Document) (.text text) (ofInt per) (ofInt start) =
      .ok shown := by
  obtain ⟨n, hn⟩ := exists_revealed text h
  unfold shownText
  rw [hn, ok_bind]
  exact ⟨_, rfl⟩

theorem finish_eq : finish (.text text) (ofInt per : Document) (ofInt start) =
    .ok (ofInt (start + text.length * per)) := by
  rw [finish, duration, size_text]
  rfl

end Typing

namespace TypedField

variable {f start per : Int}

theorem exists_caretOpacityAt (f : Int) :
    ∃ x, caretOpacityAt (ofInt f) = .ok (Document.double x) := by
  unfold caretOpacityAt
  rw [Pointer.modulo_ofInt (by decide), ok_bind]
  change ∃ x, Phase.rampAt _ [0, 4, 8, 12, 16] [1, 1, 0, 0, 1] = .ok (Document.double x)
  exact Phase.exists_rampAt (by decide) _

/-- The caret is to be seen from the start on, and after the last character for a while. -/
theorem caretShown_eq (f start finish : Int) (complete : Bool) :
    caretShown (ofInt f : Document) (ofInt start) (ofInt finish) complete =
      .ok (decide (start ≤ f ∧ (complete = true → f ≤ finish + 10))) := by
  unfold caretShown
  rw [Arith.Whole.le_ofInt, ok_bind]
  by_cases hf : start ≤ f
  · rw [if_pos (decide_eq_true hf)]
    cases complete with
    | false => simp [hf]
    | true =>
      rw [Arith.Whole.sub_ofInt, ok_bind, Arith.Whole.lt_ofInt]
      have hlinger : linger < f - finish ↔ ¬ f ≤ finish + 10 := by
        unfold linger
        omega
      rw [decide_eq_decide.mpr hlinger, decide_not, ok_bind, pure_eq_ok, Bool.not_not]
      simp [hf]
  · rw [if_neg (by simpa using hf)]
    simp [hf]

theorem exists_typedAt (text : String) (h : (f - start).natAbs < per.natAbs * 2 ^ 64)
    (showCaret : Bool) :
    ∃ field : TypedField Document, typedAt (ofInt f) (.text text) (ofInt start) (ofInt per)
      (.flag showCaret) = .ok field := by
  obtain ⟨chars, hchars⟩ := Typing.exists_revealed text h
  obtain ⟨shown, hshown⟩ : ∃ shown, caretShown (ofInt f : Document) (ofInt start)
      (ofInt (start + text.length * per)) (decide ((text.length : Int) ≤ chars)) = .ok shown :=
    ⟨_, caretShown_eq ..⟩
  obtain ⟨opacity, hopacity⟩ := exists_caretOpacityAt f
  obtain ⟨value, hvalue⟩ : ∃ v, (Document.text text).front chars.toNat = .ok v := ⟨_, rfl⟩
  unfold typedAt
  rw [hchars, ok_bind, Typing.size_text, ok_bind, Typing.finish_eq, ok_bind]
  dsimp only
  rw [hshown, hvalue, hopacity]
  cases showCaret with
  | false => exact ⟨_, rfl⟩
  | true => cases shown <;> exact ⟨_, rfl⟩

end TypedField

/-! ## Views that trade places -/

theorem Document.exists_lt_double_of_number {v : Document} (hv : v.number?.isSome) (x : Float) :
    ∃ b, Arith.lt v (.double x) = .ok b := by
  cases v with
  | flag b => exact ⟨_, rfl⟩
  | int n => exact ⟨_, rfl⟩
  | double y => exact ⟨_, rfl⟩
  | null => cases hv
  | text s => cases hv
  | list items => cases hv
  | mapping entries => cases hv

theorem CrossFade.exists_swapAt {start stop : Int} (h : start ≤ stop) {threshold : Document}
    (hthreshold : threshold.number?.isSome) (f : Int) :
    ∃ c, swapAt (ofInt f) (ofInt start) (ofInt stop) threshold = .ok c := by
  obtain ⟨outgoing, houtgoing⟩ := Phase.exists_ramp_pair h (ofInt 1) (ofInt 0)
    (.int (by decide)) (.int (by decide)) f
  obtain ⟨incoming, hincoming⟩ := Phase.exists_ramp_pair h (ofInt 0) (ofInt 1)
    (.int (by decide)) (.int (by decide)) f
  obtain ⟨above, habove⟩ := Document.exists_lt_double_of_number hthreshold outgoing
  obtain ⟨above', habove'⟩ := Document.exists_lt_double_of_number hthreshold incoming
  obtain ⟨outer, houter⟩ : ∃ b, Arith.le (Document.double incoming) (.double outgoing) = .ok b :=
    ⟨_, rfl⟩
  obtain ⟨inner, hinner⟩ := exists_lt_double outgoing incoming
  unfold swapAt
  rw [houtgoing, ok_bind, hincoming, ok_bind, houter, ok_bind, habove, hinner]
  cases outer with
  | false =>
    cases inner with
    | false => exact ⟨_, rfl⟩
    | true =>
      dsimp only [Bool.false_eq_true, ↓reduceIte, pure_eq_ok, ok_bind]
      rw [habove']
      exact ⟨_, rfl⟩
  | true =>
    cases inner with
    | false => exact ⟨_, rfl⟩
    | true =>
      dsimp only [Bool.false_eq_true, ↓reduceIte, pure_eq_ok, ok_bind]
      rw [habove']
      exact ⟨_, rfl⟩

end Showreel
