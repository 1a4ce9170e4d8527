import Mathlib.Algebra.Order.Group.MinMax
import Mathlib.Order.Interval.Set.Basic
import Showreel.Proofs.Easing

/-!
# Easings without jumps

An easing is put together from formulas, one behind the other. Each of them still tells the easing
at the progress where the next one takes over, so neighbouring formulas agree there. A function put
together like this is nowhere steeper than its formulas: no easing is steeper than the first bounce
where it lands.
-/

namespace Showreel

open Set (EqOn Icc)

/-- Between two places a function changes at most so many times as fast as its argument. -/
def Gentle (rate : ℚ) (f : ℚ → ℚ) (a b : ℚ) : Prop :=
  ∀ s t, a ≤ s → s ≤ t → t ≤ b → |f t - f s| ≤ rate * (t - s)

namespace Gentle

variable {rate a b c : ℚ} {f g : ℚ → ℚ}

theorem join (h : Gentle rate f a b) (h' : Gentle rate f b c) : Gentle rate f a c := by
  intro s t hs hst ht
  rcases le_total t b with htb | hbt
  · exact h s t hs hst htb
  rcases le_total b s with hbs | hsb
  · exact h' s t hbs hst ht
  · calc |f t - f s| ≤ |f t - f b| + |f b - f s| := abs_sub_le _ _ _
      _ ≤ rate * (t - b) + rate * (b - s) := add_le_add (h' b t le_rfl hbt ht) (h s b hs hsb le_rfl)
      _ = rate * (t - s) := by ring

theorem congr (h : Gentle rate g a b) (heq : EqOn f g (Icc a b)) : Gentle rate f a b := by
  intro s t hs hst ht
  rw [heq ⟨hs.trans hst, ht⟩, heq ⟨hs, hst.trans ht⟩]
  exact h s t hs hst ht

/-- Between two places in any order. -/
theorem le_abs (h : Gentle rate f a b) {s t : ℚ} (hs : s ∈ Icc a b) (ht : t ∈ Icc a b) :
    |f t - f s| ≤ rate * |t - s| := by
  rcases le_total s t with hst | hts
  · rw [abs_of_nonneg (sub_nonneg.mpr hst)]
    exact h s t hs.1 hst ht.2
  · rw [abs_sub_comm, abs_sub_comm t, abs_of_nonneg (sub_nonneg.mpr hts)]
    exact h t s ht.1 hts hs.2

/-- What changes by a factor of its argument is as gentle as the factor is small. -/
theorem of_slope (slope : ℚ → ℚ → ℚ) (hslope : ∀ s t, f t - f s = slope s t * (t - s))
    (hrate : ∀ s t, a ≤ s → s ≤ t → t ≤ b → |slope s t| ≤ rate) : Gentle rate f a b := by
  intro s t hs hst ht
  rw [hslope, abs_mul, abs_of_nonneg (sub_nonneg.mpr hst)]
  exact mul_le_mul_of_nonneg_right (hrate s t hs hst ht) (sub_nonneg.mpr hst)

end Gentle

/-! ## Formulas one behind the other -/

/-- A formula and the place up to which it tells a function. -/
structure Piece where
  formula : ℚ → ℚ
  stop : ℚ

namespace Piece

/-- Pieces lead from one place to another, each from where the one in front of it stops, and all
formulas have a property on their stretch. -/
def Lead (P : (ℚ → ℚ) → ℚ → ℚ → Prop) : ℚ → List Piece → ℚ → Prop
  | a, [], b => a = b
  | a, p :: rest, b => a < p.stop ∧ P p.formula a p.stop ∧ Lead P p.stop rest b

/-- Pieces tell a function from one place to another, each up to its very end. -/
abbrev Tell (f : ℚ → ℚ) : ℚ → List Piece → ℚ → Prop :=
  Lead fun g a b => EqOn f g (Icc a b)

variable {f g : ℚ → ℚ} {rate a b : ℚ} {pieces : List Piece}

theorem le_of_lead {P : (ℚ → ℚ) → ℚ → ℚ → Prop} (h : Lead P a pieces b) : a ≤ b := by
  induction pieces generalizing a with
  | nil => exact le_of_eq h
  | cons p rest ih => exact h.1.le.trans (ih h.2.2)

theorem tell_congr (h : Tell f a pieces b) (heq : EqOn g f (Icc a b)) : Tell g a pieces b := by
  induction pieces generalizing a with
  | nil => exact h
  | cons p rest ih =>
    obtain ⟨hp, htell, hrest⟩ := h
    have hstop : p.stop ≤ b := le_of_lead hrest
    refine ⟨hp, fun t ht => ?_, ih hrest (heq.mono (Set.Icc_subset_Icc_left hp.le))⟩
    exact (heq ⟨ht.1, ht.2.trans hstop⟩).trans (htell ht)

/-- Where one formula takes over from another, both say the same. -/
theorem isChain_of_tell (h : Tell f a pieces b) :
    pieces.IsChain fun p q => p.formula p.stop = q.formula p.stop := by
  induction pieces generalizing a with
  | nil => exact .nil
  | cons p rest ih =>
    cases rest with
    | nil => exact .singleton p
    | cons q rest =>
      obtain ⟨hp, htell, hrest⟩ := h
      obtain ⟨hq, htell', -⟩ := id hrest
      refine .cons_cons ?_ (ih hrest)
      calc p.formula p.stop = f p.stop := (htell ⟨hp.le, le_rfl⟩).symm
        _ = q.formula p.stop := htell' ⟨le_rfl, hq.le⟩

/-- A function is as gentle as the formulas that tell it. -/
theorem gentle_of_tell (h : Tell f a pieces b) (hgentle : Lead (Gentle rate) a pieces b) :
    Gentle rate f a b := by
  induction pieces generalizing a with
  | nil =>
    obtain rfl : a = b := h
    intro s t hs hst ht
    obtain rfl : s = t := le_antisymm hst (ht.trans hs)
    simp
  | cons p rest ih =>
    obtain ⟨-, htell, hrest⟩ := h
    obtain ⟨-, hp, hgentle⟩ := hgentle
    exact (hp.congr htell).join (ih hrest hgentle)

end Piece

/-! ## The formulas of easings -/

namespace Easing

/-- The formulas of an easing, each with the progress at which it hands over to the next. -/
def pieces : Easing → List Piece
  | easeInOutCubic => [⟨fun t => 4 * t ^ 3, 1 / 2⟩, ⟨fun t => 1 - (2 - 2 * t) ^ 3 / 2, 1⟩]
  | easeOutBounce => [
      ⟨fun t => arc t 0 0, 1 / (11 / 4)⟩,
      ⟨fun t => arc t (3 / 2) (3 / 4), 2 / (11 / 4)⟩,
      ⟨fun t => arc t (9 / 4) (15 / 16), 5 / 2 / (11 / 4)⟩,
      ⟨fun t => arc t (21 / 8) (63 / 64), 1⟩]
  | e => [⟨e.shape, 1⟩]

theorem tell_pieces (e : Easing) : Piece.Tell e.shape 0 e.pieces 1 := by
  have hwhole : Piece.Tell e.shape 0 [⟨e.shape, 1⟩] 1 := ⟨one_pos, fun _ _ => rfl, rfl⟩
  cases e with
  -- The easing takes a formula in front of its stop only; at the stop both formulas are computed.
  | easeInOutCubic =>
    refine ⟨by norm_num, fun t ht => ?_, by norm_num, fun t ht => ?_, rfl⟩
    · rcases ht.2.lt_or_eq with hlt | rfl
      · exact if_pos hlt
      · norm_num [shape]
    · exact if_neg (not_lt.mpr ht.1)
  | easeOutBounce =>
    have hsecond : (1 : ℚ) / (11 / 4) < 2 / (11 / 4) := by norm_num
    have hthird : (2 : ℚ) / (11 / 4) < 5 / 2 / (11 / 4) := by norm_num
    refine ⟨by norm_num, fun t ht => ?_, hsecond, fun t ht => ?_, hthird, fun t ht => ?_,
      by norm_num, fun t ht => ?_, rfl⟩
    · rcases ht.2.lt_or_eq with hlt | rfl
      · exact if_pos hlt
      · norm_num [shape, arc]
    · have hfirst : ¬ t < 1 / (11 / 4) := not_lt.mpr ht.1
      rcases ht.2.lt_or_eq with hlt | rfl
      · simp only [shape]
        rw [if_neg hfirst, if_pos hlt]
      · norm_num [shape, arc]
    · have hfirst : ¬ t < 1 / (11 / 4) := not_lt.mpr (hsecond.le.trans ht.1)
      rcases ht.2.lt_or_eq with hlt | rfl
      · simp only [shape]
        rw [if_neg hfirst, if_neg (not_lt.mpr ht.1), if_pos hlt]
      · norm_num [shape, arc]
    · have hlow : 2 / (11 / 4) ≤ t := hthird.le.trans ht.1
      simp only [shape]
      rw [if_neg (not_lt.mpr (hsecond.le.trans hlow)), if_neg (not_lt.mpr hlow),
        if_neg (not_lt.mpr ht.1)]
  | _ => exact hwhole

/-! ## Slopes -/

/-- The slope of a cubic between two places that are not far from its centre. -/
theorem abs_cubic_slope_le (width : ℚ) {factor x y : ℚ} (hfactor : 0 ≤ factor) (hx : 0 ≤ x)
    (hxw : x ≤ width) (hy : 0 ≤ y) (hyw : y ≤ width) :
    |factor * (x ^ 2 + x * y + y ^ 2)| ≤ 3 * factor * width ^ 2 := by
  rw [abs_of_nonneg (by positivity)]
  have hwidth : 0 ≤ width := hx.trans hxw
  calc factor * (x ^ 2 + x * y + y ^ 2) ≤ factor * (width ^ 2 + width * width + width ^ 2) := by
        gcongr
    _ = 3 * factor * width ^ 2 := by ring

/-- A bounce is steepest where it begins and ends, and the first half bounce is the widest. -/
theorem gentle_arc {a b centre : ℚ} (lift : ℚ) (ha : centre / (11 / 4) - 4 / 11 ≤ a)
    (hb : b ≤ centre / (11 / 4) + 4 / 11) :
    Gentle (11 / 2) (fun t => arc t centre lift) a b := by
  refine .of_slope (fun s t => 121 / 16 * ((t - centre / (11 / 4)) + (s - centre / (11 / 4))))
    (fun s t => ?_) fun s t hs hst ht => ?_
  · unfold arc
    ring
  · rw [abs_le]
    constructor <;> linarith

theorem gentle_easeOutCubic : Gentle (11 / 2) easeOutCubic.shape 0 1 := by
  refine .of_slope (fun s t => 1 * ((1 - s) ^ 2 + (1 - s) * (1 - t) + (1 - t) ^ 2))
    (fun s t => ?_) fun s t hs hst ht => ?_
  · simp only [shape]
    ring
  · refine (abs_cubic_slope_le 1 one_pos.le ?_ ?_ ?_ ?_).trans (by norm_num) <;>
      linarith

theorem gentle_easeInOutCubic_early : Gentle (11 / 2) (fun t => 4 * t ^ 3) 0 (1 / 2) := by
  refine .of_slope (fun s t => 4 * (s ^ 2 + s * t + t ^ 2)) (fun s t => by ring)
    fun s t hs hst ht => ?_
  refine (abs_cubic_slope_le _ four_pos.le hs (hst.trans ht) (hs.trans hst) ht).trans ?_
  norm_num

theorem gentle_easeInOutCubic_late :
    Gentle (11 / 2) (fun t => 1 - (2 - 2 * t) ^ 3 / 2) (1 / 2) 1 := by
  refine .of_slope (fun s t => 4 * ((1 - s) ^ 2 + (1 - s) * (1 - t) + (1 - t) ^ 2))
    (fun s t => by ring) fun s t hs hst ht => ?_
  refine (abs_cubic_slope_le (1 / 2) four_pos.le ?_ ?_ ?_ ?_).trans (by norm_num) <;>
    linarith

theorem gentle_easeOutQuad : Gentle (11 / 2) easeOutQuad.shape 0 1 := by
  refine .of_slope (fun s t => (1 - s) + (1 - t)) (fun s t => ?_) fun s t hs hst ht => ?_
  · simp only [shape]
    ring
  · rw [abs_le]
    constructor <;> linarith

theorem gentle_smoothStep : Gentle (11 / 2) smoothStep.shape 0 1 := by
  refine .of_slope _ hermite_sub fun s t hs hst ht => ?_
  rw [abs_of_nonneg (hermite_slope_nonneg ⟨hs, hst.trans ht⟩ ⟨hs.trans hst, ht⟩)]
  calc 3 * (t + s) - 2 * (t ^ 2 + t * s + s ^ 2)
      = 3 / 2 - (3 * (t + s - 1) ^ 2 + (t - s) ^ 2) / 2 := by ring
    _ ≤ 3 / 2 := sub_le_self _ (by positivity)
    _ ≤ 11 / 2 := by norm_num

theorem gentle_pieces (e : Easing) : Piece.Lead (Gentle (11 / 2)) 0 e.pieces 1 := by
  cases e with
  | linear =>
    refine ⟨one_pos, .of_slope (fun _ _ => 1) (fun s t => (one_mul _).symm) ?_, rfl⟩
    intro s t _ _ _
    norm_num
  | easeOutCubic => exact ⟨one_pos, gentle_easeOutCubic, rfl⟩
  | easeInOutCubic =>
    exact ⟨by norm_num, gentle_easeInOutCubic_early, by norm_num, gentle_easeInOutCubic_late, rfl⟩
  | easeOutQuad => exact ⟨one_pos, gentle_easeOutQuad, rfl⟩
  | easeOutBounce =>
    exact ⟨by norm_num, gentle_arc _ (by norm_num) (by norm_num), by norm_num,
      gentle_arc _ (by norm_num) (by norm_num), by norm_num,
      gentle_arc _ (by norm_num) (by norm_num), by norm_num,
      gentle_arc _ (by norm_num) (by norm_num), rfl⟩
  | smoothStep => exact ⟨one_pos, gentle_smoothStep, rfl⟩

/-- No easing changes more than five and a half times as fast as the progress. -/
theorem gentle_shape (e : Easing) : Gentle (11 / 2) e.shape 0 1 :=
  Piece.gentle_of_tell e.tell_pieces e.gentle_pieces

/-! ## From zero to one -/

/-- What an easing makes of any progress. -/
def value (e : Easing) (x : ℚ) : ℚ := e.shape (max 0 (min 1 x))

theorem saturated_mem (x : ℚ) : max 0 (min 1 x) ∈ Icc (0 : ℚ) 1 :=
  ⟨le_max_left _ _, max_le zero_le_one (min_le_left _ _)⟩

theorem abs_saturated_sub_le (x y : ℚ) :
    |max 0 (min 1 y) - max 0 (min 1 x)| ≤ |y - x| := by
  calc |max 0 (min 1 y) - max 0 (min 1 x)|
      ≤ max |(0 : ℚ) - 0| |min 1 y - min 1 x| := abs_max_sub_max_le_max _ _ _ _
    _ = |min 1 y - min 1 x| := by simp
    _ ≤ max |(1 : ℚ) - 1| |y - x| := abs_min_sub_min_le_max _ _ _ _
    _ = |y - x| := by simp

theorem value_eqOn_shape (e : Easing) : EqOn e.value e.shape (Icc 0 1) := by
  intro x hx
  rw [value, min_eq_right hx.2, max_eq_right hx.1]

theorem value_of_nonpos (e : Easing) {x : ℚ} (hx : x ≤ 0) : e.value x = 0 := by
  rw [value, min_eq_right (hx.trans zero_le_one), max_eq_left hx, e.shape_zero]

theorem value_of_one_le (e : Easing) {x : ℚ} (hx : 1 ≤ x) : e.value x = 1 := by
  rw [value, min_eq_left hx, max_eq_right zero_le_one, e.shape_one]

/-- The bouncing easing falls behind its first bounce. -/
theorem value_monotone_iff (e : Easing) : Monotone e.value ↔ e ≠ .easeOutBounce := by
  constructor
  · rintro hmono rfl
    have hfall : easeOutBounce.value (4 / 11) ≤ easeOutBounce.value (6 / 11) :=
      hmono (by norm_num)
    norm_num [value, shape, arc] at hfall
  · intro he x y hxy
    exact (shape_rises he).le (saturated_mem x).1 (by gcongr) (saturated_mem y).2

/-- Every easing that can be named has a value at every progress: zero up to zero, one from one on,
and something between them in between. From zero to one it is told by its formulas, each up to its
very end, so that neighbouring formulas agree where the second takes over from the first, and it
nowhere changes more than five and a half times as fast as the progress. It never falls, unless it
bounces. -/
theorem rises_without_jumps (e : Easing) :
    ofName? e.name = some e ∧ (∀ x, e.apply x = .ok (e.value x)) ∧
      (∀ x, 0 ≤ e.value x ∧ e.value x ≤ 1) ∧ (∀ x ≤ 0, e.value x = 0) ∧
      (∀ x, 1 ≤ x → e.value x = 1) ∧ Piece.Tell e.value 0 e.pieces 1 ∧
      (e.pieces.IsChain fun p q => p.formula p.stop = q.formula p.stop) ∧
      (∀ x y, |e.value y - e.value x| ≤ 11 / 2 * |y - x|) ∧
      (Monotone e.value ↔ e ≠ .easeOutBounce) := by
  have htell : Piece.Tell e.value 0 e.pieces 1 :=
    Piece.tell_congr e.tell_pieces e.value_eqOn_shape
  refine ⟨by cases e <;> rfl, e.apply_rat, fun x => ?_, fun x => e.value_of_nonpos,
    fun x => e.value_of_one_le, htell, Piece.isChain_of_tell htell, fun x y => ?_,
    e.value_monotone_iff⟩
  · exact e.shape_mem (saturated_mem x).1 (saturated_mem x).2
  · exact (e.gentle_shape.le_abs (saturated_mem x) (saturated_mem y)).trans
      (mul_le_mul_of_nonneg_left (abs_saturated_sub_le x y) (by norm_num))

end Easing

end Showreel
