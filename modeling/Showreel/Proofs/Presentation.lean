import Mathlib.Algebra.Order.Group.Abs
import Showreel.Effect
import Showreel.Proofs.Easing

/-!
# Exact presentations

In exact arithmetic every presentation has effects on both layers at every progress. From one
progress to a later one the outgoing layer fades and the incoming one appears, layers that slide
stay side by side, and what moves or changes its size only comes nearer to where it ends.
-/

namespace Showreel

namespace LayerEffect

theorem full_eq :
    (full : LayerEffect ℚ) = { opacity := 1, offsetX := 0, offsetY := 0, scale := 1 } := by
  rw [full, Arith.one_rat, Arith.zero_rat]

theorem full_rat : (full : LayerEffect ℚ) = faded 1 := by rw [faded, full_eq]

theorem shifted_zero : (shifted 0 : LayerEffect ℚ) = full := by rw [shifted, full_eq]

end LayerEffect

namespace Presentation

open LayerEffect

/-! ## Effects told by formulas -/

/-- The share of their way that moving layers have gone. -/
def moved (x : ℚ) : ℚ := Easing.easeOutCubic.shape (max 0 (min 1 x))

/-- Two layers side by side, the incoming one on the side of the sign. -/
def slid (sign y : ℚ) : LayerEffect ℚ × LayerEffect ℚ :=
  (shifted (-sign * y), shifted (sign * (1 - y)))

/-- A layer that fades in while it has some size, above one that stays. -/
def zoomed (y scale : ℚ) : LayerEffect ℚ × LayerEffect ℚ :=
  (full, { full with opacity := min 1 (y * (3 / 2)), scale })

def exact (p : Presentation) (x : ℚ) : LayerEffect ℚ × LayerEffect ℚ :=
  match p with
  | cut => if x < 1 / 2 then (full, faded 0) else (faded 0, full)
  | crossfade => (faded (1 - x), faded x)
  | fadeBlack => (faded (max 0 (1 - 2 * x)), faded (max 0 (2 * x - 1)))
  | slideLeft => slid 1 (moved x)
  | slideRight => slid (-1) (moved x)
  | zoomIn => zoomed (moved x) (3 / 10 + 7 / 10 * moved x)
  | zoomOut => zoomed (moved x) (3 / 2 - 1 / 2 * moved x)

theorem slide_rat (x : ℚ) (sign : Int) : slide x sign = .ok (slid sign (moved x)) := by
  rw [slide, Easing.apply_rat, ok_bind, Arith.one_rat, slid, ← Int.cast_neg]
  rfl

theorem zoom_rat (x : ℚ) {size : ℚ → Except Fault ℚ} {scale : ℚ}
    (hsize : size (moved x) = .ok scale) : zoom x size = .ok (zoomed (moved x) scale) := by
  have hfade : (zoomFade : ℚ) = 3 / 2 := by
    rw [zoomFade, Arith.ofScientific_rat]
    norm_num
  rw [zoom, Easing.apply_rat, ok_bind, hfade, Arith.mul_rat, ok_bind, Arith.one_rat,
    Arith.least_rat, ok_bind, ← moved, hsize]
  rfl

theorem growing_rat (y : ℚ) : growing y = .ok (3 / 10 + 7 / 10 * y) := by
  simp only [growing, Arith.add_rat, Arith.mul_rat, ok_bind, Arith.ofScientific_rat]
  norm_num

theorem shrinking_rat (y : ℚ) : shrinking y = .ok (3 / 2 - 1 / 2 * y) := by
  simp only [shrinking, Arith.sub_rat, Arith.mul_rat, ok_bind, Arith.ofScientific_rat]
  norm_num

/-- The effects of a presentation are those that its formulas tell. -/
theorem effects_rat (p : Presentation) (x : ℚ) : p.effects x = .ok (p.exact x) := by
  cases p with
  | cut =>
    rw [effects, Arith.half_rat, Arith.lt_rat, ok_bind, invisible, Arith.zero_rat, exact]
    simp only [decide_eq_true_eq]
    split <;> rfl
  | crossfade =>
    rw [effects, Arith.one_rat]
    rfl
  | fadeBlack =>
    rw [effects, Arith.two_rat, Arith.one_rat, Arith.zero_rat]
    simp only [Arith.mul_rat, Arith.sub_rat, ok_bind, Arith.greatest_rat, pure_eq_ok, exact]
  | slideLeft => rw [effects, slide_rat, exact, Int.cast_one]
  | slideRight => rw [effects, slide_rat, exact, Int.cast_neg, Int.cast_one]
  | zoomIn => exact zoom_rat x (growing_rat _)
  | zoomOut => exact zoom_rat x (shrinking_rat _)

/-! ## Giving way -/

theorem moved_rises : Rises moved where
  zero := by
    rw [moved, min_eq_right zero_le_one, max_self]
    exact (Easing.shape_rises (e := .easeOutCubic) nofun).zero
  one := by
    rw [moved, min_self, max_eq_right zero_le_one]
    exact (Easing.shape_rises (e := .easeOutCubic) nofun).one
  mono s hs t ht hst := by
    rw [moved, moved, min_eq_right hs.2, max_eq_right hs.1, min_eq_right ht.2, max_eq_right ht.1]
    exact (Easing.shape_rises (e := .easeOutCubic) nofun).mono hs ht hst

/-- A quantity comes nearer to its goal from one side, if it moves at all. -/
def Approaches (goal earlier later : ℚ) : Prop :=
  earlier ≤ later ∧ later ≤ goal ∨ goal ≤ later ∧ later ≤ earlier

def Slides (p : Presentation) : Prop := p = slideLeft ∨ p = slideRight

def Zooms (p : Presentation) : Prop := p = zoomIn ∨ p = zoomOut

/-- What becomes of the two layers of a presentation from one progress to a later one. -/
structure GivesWay (p : Presentation) (earlier later : LayerEffect ℚ × LayerEffect ℚ) : Prop where
  outgoing : later.1.opacity ≤ earlier.1.opacity
  incoming : earlier.2.opacity ≤ later.2.opacity
  apart : p.Slides → |earlier.2.offsetX - earlier.1.offsetX| = 1 ∧
    |later.2.offsetX - later.1.offsetX| = 1
  slides : p.Slides → Approaches 0 earlier.2.offsetX later.2.offsetX
  zooms : p.Zooms → Approaches 1 earlier.2.scale later.2.scale

/-- Layers that neither slide nor zoom only have to fade. -/
theorem GivesWay.of_fading {p : Presentation} {earlier later : LayerEffect ℚ × LayerEffect ℚ}
    (hslides : ¬ p.Slides) (hzooms : ¬ p.Zooms) (houtgoing : later.1.opacity ≤ earlier.1.opacity)
    (hincoming : earlier.2.opacity ≤ later.2.opacity) : p.GivesWay earlier later :=
  ⟨houtgoing, hincoming, fun h => absurd h hslides, fun h => absurd h hslides,
    fun h => absurd h hzooms⟩

theorem abs_slid (sign y : ℚ) (hsign : |sign| = 1) :
    |(slid sign y).2.offsetX - (slid sign y).1.offsetX| = 1 := by
  have hdistance : sign * (1 - y) - -sign * y = sign := by ring
  change |sign * (1 - y) - -sign * y| = 1
  rw [hdistance, hsign]

theorem slid_givesWay {p : Presentation} (hp : ¬ p.Zooms) {sign y z : ℚ}
    (hsign : sign = 1 ∨ sign = -1) (hyz : y ≤ z) (hz : z ≤ 1) :
    p.GivesWay (slid sign y) (slid sign z) where
  outgoing := le_rfl
  incoming := le_rfl
  apart _ := by
    have habs : |sign| = 1 := by rcases hsign with rfl | rfl <;> norm_num
    exact ⟨abs_slid sign y habs, abs_slid sign z habs⟩
  slides _ := by
    change Approaches 0 (sign * (1 - y)) (sign * (1 - z))
    rcases hsign with rfl | rfl
    · exact .inr ⟨by linarith, by linarith⟩
    · exact .inl ⟨by linarith, by linarith⟩
  zooms h := absurd h hp

theorem zoomed_givesWay {p : Presentation} (hp : ¬ p.Slides) {y z scale scale' : ℚ} (hyz : y ≤ z)
    (hscale : Approaches 1 scale scale') : p.GivesWay (zoomed y scale) (zoomed z scale') where
  outgoing := le_rfl
  incoming := min_le_min_left 1 (by linarith)
  apart h := absurd h hp
  slides h := absurd h hp
  zooms _ := hscale

theorem cut_givesWay {x y : ℚ} (hxy : x ≤ y) : cut.GivesWay (cut.exact x) (cut.exact y) := by
  have hslides : ¬ cut.Slides := by simp [Slides]
  have hzooms : ¬ cut.Zooms := by simp [Zooms]
  have hearly {z : ℚ} (hz : z < 1 / 2) : cut.exact z = (full, faded 0) := if_pos hz
  have hlate {z : ℚ} (hz : ¬ z < 1 / 2) : cut.exact z = (faded 0, full) := if_neg hz
  by_cases hx : x < 1 / 2
  · by_cases hy : y < 1 / 2
    · rw [hearly hx, hearly hy]
      exact .of_fading hslides hzooms le_rfl le_rfl
    · have hfull : 0 ≤ (full : LayerEffect ℚ).opacity := by
        rw [full_eq]
        exact zero_le_one
      rw [hearly hx, hlate hy]
      exact .of_fading hslides hzooms hfull hfull
  · rw [hlate hx, hlate fun h => hx (hxy.trans_lt h)]
    exact .of_fading hslides hzooms le_rfl le_rfl

/-- From one progress to a later one the outgoing layer gives way to the incoming one. -/
theorem exact_givesWay (p : Presentation) {x y : ℚ} (hx : 0 ≤ x) (hxy : x ≤ y) (hy : y ≤ 1) :
    p.GivesWay (p.exact x) (p.exact y) := by
  have hmoved := moved_rises.le hx hxy hy
  have hbound := (moved_rises.mem (hx.trans hxy) hy).2
  cases p with
  | cut => exact cut_givesWay hxy
  | crossfade =>
    exact .of_fading (by simp [Slides]) (by simp [Zooms]) (sub_le_sub_left hxy 1) hxy
  | fadeBlack =>
    exact .of_fading (by simp [Slides]) (by simp [Zooms]) (max_le_max_left 0 (by linarith))
      (max_le_max_left 0 (by linarith))
  | slideLeft => exact slid_givesWay (by simp [Zooms]) (.inl rfl) hmoved hbound
  | slideRight => exact slid_givesWay (by simp [Zooms]) (.inr rfl) hmoved hbound
  | zoomIn =>
    exact zoomed_givesWay (by simp [Slides]) hmoved (.inl ⟨by linarith, by linarith⟩)
  | zoomOut =>
    exact zoomed_givesWay (by simp [Slides]) hmoved (.inr ⟨by linarith, by linarith⟩)

/-- At the start the outgoing layer is as if it were alone. -/
theorem exact_zero_outgoing (p : Presentation) : (p.exact 0).1 = full := by
  cases p with
  | cut => rw [exact, if_pos (by norm_num)]
  | crossfade => rw [exact, sub_zero, full_rat]
  | fadeBlack => rw [exact, mul_zero, sub_zero, max_eq_right zero_le_one, full_rat]
  | slideLeft => rw [exact, slid, moved_rises.zero, mul_zero, shifted_zero]
  | slideRight => rw [exact, slid, moved_rises.zero, mul_zero, shifted_zero]
  | zoomIn => rfl
  | zoomOut => rfl

theorem zoomed_one : (zoomed 1 1).2 = full := by
  rw [zoomed, one_mul, min_eq_left (by norm_num), full_eq]

/-- At the end the incoming layer is as if it were alone. -/
theorem exact_one_incoming (p : Presentation) : (p.exact 1).2 = full := by
  cases p with
  | cut => rw [exact, if_neg (by norm_num)]
  | crossfade => rw [exact, full_rat]
  | fadeBlack =>
    have hopacity : max (0 : ℚ) (2 * 1 - 1) = 1 := by norm_num
    rw [exact, hopacity, full_rat]
  | slideLeft => rw [exact, slid, moved_rises.one, sub_self, mul_zero, shifted_zero]
  | slideRight => rw [exact, slid, moved_rises.one, sub_self, mul_zero, shifted_zero]
  | zoomIn =>
    have hscale : (3 / 10 + 7 / 10 * 1 : ℚ) = 1 := by norm_num
    rw [exact, moved_rises.one, hscale, zoomed_one]
  | zoomOut =>
    have hscale : (3 / 2 - 1 / 2 * 1 : ℚ) = 1 := by norm_num
    rw [exact, moved_rises.one, hscale, zoomed_one]

end Presentation

end Showreel
