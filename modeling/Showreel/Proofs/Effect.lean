import Showreel.Proofs.Arith.Whole
import Showreel.Timeline.Segment

/-!
# Effects of documents

A progress that was saturated is a double, whatever kind of number an easing gave. From there on
only doubles meet, so every presentation yields its effects and effects can be combined: where a
layer has no effect, the progress is at fault. What the numbers are is not asked here.
-/

namespace Showreel

open Arith

/-! ## Doubles among themselves -/

section Doubles

theorem exists_lt_double (x y : Float) :
    ∃ b, lt (Document.double x) (.double y) = .ok b := ⟨_, rfl⟩

theorem exists_least_double (x y : Float) :
    ∃ z, least (Document.double x) (.double y) = .ok (.double z) := by
  obtain ⟨b, hb⟩ := exists_lt_double y x
  rw [least, hb]
  cases b with
  | false => exact ⟨x, rfl⟩
  | true => exact ⟨y, rfl⟩

theorem exists_greatest_double (x y : Float) :
    ∃ z, greatest (Document.double x) (.double y) = .ok (.double z) := by
  obtain ⟨b, hb⟩ := exists_lt_double x y
  rw [greatest, hb]
  cases b with
  | false => exact ⟨x, rfl⟩
  | true => exact ⟨y, rfl⟩

theorem exists_saturate_double (x : Float) :
    ∃ z, saturate (Document.double x) = .ok (.double z) := by
  obtain ⟨y, hy⟩ := exists_least_double 1.0 x
  obtain ⟨z, hz⟩ := exists_greatest_double 0.0 y
  have hy' : least (1.0 : Document) (.double x) = .ok (.double y) := hy
  rw [saturate, hy', ok_bind]
  exact ⟨z, hz⟩

theorem Easing.exists_decelerate_double (n : Nat) (x : Float) :
    ∃ z, Easing.decelerate n (Document.double x) = .ok (.double z) := ⟨_, rfl⟩

theorem Easing.exists_accelerateDecelerate_double (x : Float) :
    ∃ z, Easing.accelerateDecelerate (Document.double x) = .ok (.double z) := by
  obtain ⟨early, hearly⟩ := exists_lt_double x 0.5
  have hearly' : lt (Document.double x) 0.5 = .ok early := hearly
  unfold Easing.accelerateDecelerate
  rw [hearly', ok_bind]
  cases early with
  | true => exact ⟨_, rfl⟩
  | false => exact ⟨_, rfl⟩

theorem Easing.exists_bounce_double (x : Float) :
    ∃ z, Easing.bounce (Document.double x) = .ok (.double z) := by
  have hbound : ∀ (v : Document) (y : Float), v = .double y → ∃ b z,
      div v 2.75 = .ok (.double z) ∧ lt (Document.double x) (.double z) = .ok b := by
    rintro _ y rfl
    exact ⟨_, _, rfl, rfl⟩
  have harc : ∀ y lift : Float, ∃ z,
      Easing.bounceArc (Document.double x) (.double y) (.double lift) = .ok (.double z) :=
    fun y lift => ⟨_, rfl⟩
  obtain ⟨b₁, z₁, hz₁, hb₁⟩ := hbound 1.0 1.0 rfl
  obtain ⟨b₂, z₂, hz₂, hb₂⟩ := hbound 2.0 2.0 rfl
  obtain ⟨b₃, z₃, hz₃, hb₃⟩ := hbound 2.5 2.5 rfl
  unfold Easing.bounce
  rw [hz₁, ok_bind, hb₁, ok_bind, hz₂, ok_bind, hb₂, ok_bind, hz₃, ok_bind, hb₃, ok_bind]
  split
  · exact ⟨_, rfl⟩
  · split
    · exact harc 1.5 0.75
    · split
      · exact harc 2.25 0.9375
      · exact harc 2.625 0.984375

/-- An easing yields a double at every double. -/
theorem Easing.exists_apply_double (e : Easing) (x : Float) :
    ∃ z, e.apply (Document.double x) = .ok (.double z) := by
  obtain ⟨y, hy⟩ := exists_saturate_double x
  rw [Easing.apply, hy, ok_bind]
  cases e with
  | linear => exact ⟨y, rfl⟩
  | easeOutCubic => exact Easing.exists_decelerate_double 3 y
  | easeInOutCubic => exact Easing.exists_accelerateDecelerate_double y
  | easeOutQuad => exact Easing.exists_decelerate_double 2 y
  | easeOutBounce => exact Easing.exists_bounce_double y
  | smoothStep => exact ⟨_, rfl⟩

theorem exists_easeOutCubic_double (x : Float) :
    ∃ z, Easing.easeOutCubic.apply (Document.double x) = .ok (.double z) :=
  Easing.easeOutCubic.exists_apply_double x

end Doubles

theorem lt_int_one (n : Int) : lt (Document.int n) (1.0 : Document) = .ok (decide (n < 1)) := by
  have hone : Double.compareInt n 1.0 = some (compare (n * 2 ^ 52) (1 * 2 ^ 52)) := by
    unfold Double.compareInt
    rw [show Double.parts 1.0 = .finite false (2 ^ 52) (-52) from rfl]
    rfl
  have hlt : lt (Document.int n) (1.0 : Document) =
      .ok (some (compare (n * 2 ^ 52) (1 * 2 ^ 52)) == some .lt) := by
    rw [← hone]
    rfl
  rw [hlt]
  by_cases h : n < 1
  · have hcompare := Int.compare_eq_lt.mpr (show n * 2 ^ 52 < 1 * 2 ^ 52 by omega)
    rw [hcompare, decide_eq_true h]
    rfl
  · have hcompare : compare (n * 2 ^ 52) (1 * 2 ^ 52) ≠ .lt := by
      rw [Ne, Int.compare_eq_lt]
      omega
    rw [decide_eq_false h, Option.some_beq_some, beq_eq_false_iff_ne.mpr hcompare]

theorem not_lt_zero_int {n : Int} (hn : n ≤ 0) : lt (0.0 : Document) (.int n) = .ok false := by
  obtain ⟨k, hzero⟩ : ∃ k : Nat, Double.compareInt n 0.0 = some (compare (n * 2 ^ k) 0) := by
    unfold Double.compareInt
    rw [show Double.parts 0.0 = .finite false 0 (-1074) from rfl]
    dsimp only
    rw [show Double.signed false 0 = 0 from rfl, zero_mul]
    exact ⟨_, rfl⟩
  have hlt : lt (0.0 : Document) (.int n) =
      .ok ((some (compare (n * 2 ^ k) 0)).map Ordering.swap == some .lt) := by
    rw [← hzero]
    rfl
  have hcompare : compare (n * 2 ^ k) 0 ≠ .gt := by
    rw [Ne, Int.compare_eq_gt, not_lt]
    exact mul_nonpos_of_nonpos_of_nonneg hn (pow_nonneg (by omega) k)
  rw [hlt]
  cases h : compare (n * 2 ^ k) 0 with
  | gt => exact absurd h hcompare
  | lt => rfl
  | eq => rfl

/-- No integer lies strictly between the bounds, so one of them is taken. -/
theorem exists_saturate_int (n : Int) : ∃ x, saturate (Document.int n) = .ok (.double x) := by
  rw [saturate, least, lt_int_one, ok_bind]
  by_cases hn : n < 1
  · rw [if_pos (decide_eq_true hn), pure_eq_ok, ok_bind, greatest, not_lt_zero_int (by omega)]
    exact ⟨0.0, rfl⟩
  · rw [if_neg (by simpa using hn), pure_eq_ok, ok_bind]
    exact exists_greatest_double 0.0 1.0

/-- A saturated value is a double. -/
theorem saturate_eq_double {v w : Document} (h : saturate v = .ok w) : ∃ x, w = .double x := by
  cases v with
  | double x =>
    obtain ⟨y, hy⟩ := exists_saturate_double x
    exact ⟨y, Except.ok.inj (h.symm.trans hy)⟩
  | int n =>
    obtain ⟨y, hy⟩ := exists_saturate_int n
    exact ⟨y, Except.ok.inj (h.symm.trans hy)⟩
  | flag b =>
    cases b with
    | false =>
      have hone : lt (Document.flag false) (1.0 : Document) = .ok true := lt_int_one 0
      have hzero : lt (0.0 : Document) (.flag false) = .ok false := not_lt_zero_int le_rfl
      rw [saturate, least, hone, ok_bind, if_pos rfl, pure_eq_ok, ok_bind, greatest, hzero] at h
      exact ⟨0.0, (Except.ok.inj h).symm⟩
    | true => exact ⟨1.0, Except.ok.inj (h.symm.trans rfl)⟩
  | null => cases h
  | text s => cases h
  | list items => cases h
  | mapping entries => cases h

/-- The progress of a transition is a double. -/
theorem Drive.progress_eq_double (d : Drive Document) {length offset x : Document}
    (h : d.progress length offset = .ok x) : ∃ y, x = .double y := by
  unfold Drive.progress at h
  cases d with
  | easing ease =>
    obtain ⟨way, -, h⟩ := bind_eq_ok_iff.mp h
    obtain ⟨value, -, h⟩ := bind_eq_ok_iff.mp h
    exact saturate_eq_double h
  | spring motion =>
    obtain ⟨value, -, h⟩ := bind_eq_ok_iff.mp h
    exact saturate_eq_double h

/-! ## Effects -/

/-- An effect whose numbers are all doubles. -/
def LayerEffect.IsDouble (e : LayerEffect Document) : Prop :=
  ∃ opacity offsetX offsetY scale : Float, e = {
    opacity := .double opacity, offsetX := .double offsetX
    offsetY := .double offsetY, scale := .double scale }

theorem LayerEffect.full_isDouble : (full : LayerEffect Document).IsDouble :=
  ⟨1.0, 0.0, 0.0, 1.0, rfl⟩

theorem LayerEffect.IsDouble.exists_combine {first second : LayerEffect Document}
    (hfirst : first.IsDouble) (hsecond : second.IsDouble) :
    ∃ e, first.combine second = .ok e ∧ e.IsDouble := by
  obtain ⟨opacity, offsetX, offsetY, scale, rfl⟩ := hfirst
  obtain ⟨opacity', offsetX', offsetY', scale', rfl⟩ := hsecond
  exact ⟨_, rfl, opacity * opacity', offsetX + offsetX', offsetY + offsetY', scale * scale', rfl⟩

theorem Presentation.exists_zoom (x : Float) (size : Document → Except Fault Document)
    (hsize : ∀ y, ∃ z, size (.double y) = .ok (.double z)) :
    ∃ outgoing incoming, zoom (Document.double x) size = .ok (outgoing, incoming) ∧
      outgoing.IsDouble ∧ incoming.IsDouble := by
  obtain ⟨eased, heased⟩ := exists_easeOutCubic_double x
  obtain ⟨opacity, hopacity⟩ := exists_least_double 1.0 (eased * 1.5)
  obtain ⟨scale, hscale⟩ := hsize eased
  have hfade : mul (Document.double eased) zoomFade = .ok (.double (eased * 1.5)) := rfl
  have hopacity' : least (1.0 : Document) (.double (eased * 1.5)) = .ok (.double opacity) :=
    hopacity
  rw [zoom, heased, ok_bind, hfade, ok_bind, hopacity', ok_bind, hscale]
  exact ⟨_, _, rfl, LayerEffect.full_isDouble, opacity, 0.0, 0.0, scale, rfl⟩

/-- A presentation has an effect on both layers at every progress. -/
theorem Presentation.exists_effects (p : Presentation) (x : Float) :
    ∃ outgoing incoming, p.effects (Document.double x) = .ok (outgoing, incoming) ∧
      outgoing.IsDouble ∧ incoming.IsDouble := by
  obtain ⟨eased, heased⟩ := exists_easeOutCubic_double x
  cases p with
  | cut =>
    obtain ⟨b, hb⟩ := exists_lt_double x 0.5
    have hb' : lt (Document.double x) 0.5 = .ok b := hb
    rw [effects, hb', ok_bind]
    cases b with
    | false => exact ⟨_, _, rfl, ⟨0.0, 0.0, 0.0, 1.0, rfl⟩, LayerEffect.full_isDouble⟩
    | true => exact ⟨_, _, rfl, LayerEffect.full_isDouble, ⟨0.0, 0.0, 0.0, 1.0, rfl⟩⟩
  | crossfade => exact ⟨_, _, rfl, ⟨1.0 - x, 0.0, 0.0, 1.0, rfl⟩, ⟨x, 0.0, 0.0, 1.0, rfl⟩⟩
  | fadeBlack =>
    obtain ⟨y, hy⟩ := exists_greatest_double 0.0 (1.0 - 2.0 * x)
    obtain ⟨z, hz⟩ := exists_greatest_double 0.0 (2.0 * x - 1.0)
    have heffects : fadeBlack.effects (Document.double x) =
        .ok (LayerEffect.faded (.double y), LayerEffect.faded (.double z)) := by
      change (greatest (.double 0.0) (Document.double (1.0 - 2.0 * x)) >>= fun y =>
        greatest (.double 0.0) (Document.double (2.0 * x - 1.0)) >>= fun z =>
        (pure (LayerEffect.faded y, LayerEffect.faded z) : Except Fault _)) = _
      rw [hy, ok_bind, hz, ok_bind, pure_eq_ok]
    exact ⟨_, _, heffects, ⟨y, 0.0, 0.0, 1.0, rfl⟩, ⟨z, 0.0, 0.0, 1.0, rfl⟩⟩
  | slideLeft =>
    rw [effects, slide, heased, ok_bind]
    exact ⟨_, _, rfl, ⟨1.0, _, 0.0, 1.0, rfl⟩, ⟨1.0, _, 0.0, 1.0, rfl⟩⟩
  | slideRight =>
    rw [effects, slide, heased, ok_bind]
    exact ⟨_, _, rfl, ⟨1.0, _, 0.0, 1.0, rfl⟩, ⟨1.0, _, 0.0, 1.0, rfl⟩⟩
  | zoomIn => exact exists_zoom x growing fun y => ⟨_, rfl⟩
  | zoomOut => exact exists_zoom x shrinking fun y => ⟨_, rfl⟩

end Showreel
