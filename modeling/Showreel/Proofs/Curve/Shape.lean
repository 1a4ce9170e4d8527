import Mathlib.Data.Set.Finite.Lemmas
import Showreel.Proofs.Curve.Runs
import Showreel.Proofs.Easing

/-!
# The shape of curves

A curve is made of pieces: one for each pair of neighbouring keyframes, one in front of them and one
behind. What leads from one point to the next along every piece, keyframes included, leads along the
whole curve. So a curve rises where its values do, and no part of it is steeper than the steepest
line between two keyframes; held at its ends, it keeps between its smallest and its largest value.
-/

namespace Showreel

namespace Curve

/-! ## Pieces -/

/-- The value at a share of the way from one value to another. Shares below zero and above one are
those of places beyond an end. -/
def along (v₀ v₁ share : ℚ) : ℚ := v₀ + (v₁ - v₀) * share

@[simp] theorem along_zero (v₀ v₁ : ℚ) : along v₀ v₁ 0 = v₀ := by simp [along]

@[simp] theorem along_one (v₀ v₁ : ℚ) : along v₀ v₁ 1 = v₁ := by simp [along]

theorem along_sub_along (v₀ v₁ s t : ℚ) :
    along v₀ v₁ s - along v₀ v₁ t = (v₁ - v₀) * (s - t) := by
  unfold along
  ring

/-- How much of the way between two breakpoints a curve goes for each unit of place beyond its
ends. -/
def rate (policy : Extrapolation) (b₀ b₁ : ℚ) : ℚ :=
  match policy with
  | .clamp => 0
  | .extend => (b₁ - b₀)⁻¹

section Rate

variable {b₀ b₁ v₀ v₁ x : ℚ}

theorem rate_nonneg (policy : Extrapolation) (h : b₀ ≤ b₁) : 0 ≤ rate policy b₀ b₁ := by
  cases policy with
  | clamp => exact le_rfl
  | extend => exact inv_nonneg.mpr (sub_nonneg.mpr h)

theorem rate_le (policy : Extrapolation) (h : b₀ ≤ b₁) : rate policy b₀ b₁ ≤ (b₁ - b₀)⁻¹ := by
  cases policy with
  | clamp => exact inv_nonneg.mpr (sub_nonneg.mpr h)
  | extend => exact le_rfl

theorem onward_ahead (policy : Extrapolation) (hx : x < b₀) :
    onward policy v₀ (line b₀ b₁ v₀ v₁ x) = along v₀ v₁ (rate policy b₀ b₁ * (x - b₀)) := by
  cases policy with
  | clamp => simp [onward, rate]
  | extend =>
    rw [onward, Neighbours.line_ahead hx, rate, along]
    split
    case isTrue h => simp [h]
    case isFalse => rw [← mul_assoc, div_eq_mul_inv]

theorem onward_beyond (policy : Extrapolation) (hx : b₁ ≤ x) :
    onward policy v₁ (line b₀ b₁ v₀ v₁ x) = along v₀ v₁ (1 + rate policy b₀ b₁ * (x - b₁)) := by
  cases policy with
  | clamp => simp [onward, rate]
  | extend =>
    rw [onward, Neighbours.line_beyond hx, rate]
    split
    case isTrue h => simp [h]
    case isFalse h =>
      have hgap : b₁ - b₀ ≠ 0 := sub_ne_zero.mpr h
      unfold along
      field_simp
      ring

end Rate

/-! ## Easings -/

/-- An easing, if there is one, maps the unit interval into itself. -/
def KeepsUnit (easing : Option (ℚ → Except Fault ℚ)) : Prop :=
  ∀ e ∈ easing, ∀ s, 0 ≤ s → s ≤ 1 → ∃ y, e s = .ok y ∧ 0 ≤ y ∧ y ≤ 1

/-- An easing, if there is one, never falls on the unit interval. -/
def NeverFalls (easing : Option (ℚ → Except Fault ℚ)) : Prop :=
  ∀ e ∈ easing, ∀ s t u w, 0 ≤ s → s ≤ t → t ≤ 1 → e s = .ok u → e t = .ok w → u ≤ w

theorem keepsUnit_map_apply (easing : Option Easing) : KeepsUnit (easing.map Easing.apply) := by
  intro f hf s hs hs'
  obtain ⟨e, -, rfl⟩ := Option.map_eq_some_iff.mp hf
  exact ⟨e.shape s, e.apply_rat_of_mem hs hs', e.shape_mem hs hs'⟩

variable {c : Curve ℚ}

theorem KeepsUnit.exists_eased (h : KeepsUnit c.easing) {s : ℚ} (hlow : 0 ≤ s) (hhigh : s ≤ 1) :
    ∃ y, c.eased s = .ok y ∧ 0 ≤ y ∧ y ≤ 1 := by
  unfold eased
  cases heasing : c.easing with
  | none => exact ⟨s, rfl, hlow, hhigh⟩
  | some e => exact h e heasing s hlow hhigh

theorem NeverFalls.eased_le (h : NeverFalls c.easing) {s t u w : ℚ} (hs : 0 ≤ s) (hst : s ≤ t)
    (ht : t ≤ 1) (hu : c.eased s = .ok u) (hw : c.eased t = .ok w) : u ≤ w := by
  unfold eased at hu hw
  cases heasing : c.easing with
  | none =>
    rw [heasing] at hu hw
    cases hu
    cases hw
    exact hst
  | some e =>
    rw [heasing] at hu hw
    exact h e heasing s t u w hs hst ht hu hw

/-- A curve whose easing keeps the unit interval has a value everywhere. -/
theorem IsOrdered.exists_valueAt_of_keepsUnit (h : c.IsOrdered) (hunit : KeepsUnit c.easing)
    (x : ℚ) : ∃ y, c.valueAt x = .ok y := by
  refine h.exists_valueAt (fun s hs hs' => ?_) x
  obtain ⟨y, hy, -⟩ := hunit.exists_eased hs hs'.le
  exact ⟨y, hy⟩

/-! ## From one point to the next -/

/-- A relation between points, places with their values, that leads from the point at a share of
the way between two neighbouring keyframes to every point behind it at a share that is not smaller.
Without easing it is enough that the way is no steeper there than the line between them. -/
structure Leads (c : Curve ℚ) (R : ℚ × ℚ → ℚ × ℚ → Prop) : Prop where
  refl : ∀ p, R p p
  trans : ∀ {p q r}, R p q → R q r → R p r
  along : ∀ {i b₀ b₁ v₀ v₁ x y s t}, c.Neighbours i b₀ b₁ v₀ v₁ → x ≤ y → s ≤ t →
    (c.easing = none → b₀ < b₁ → t - s ≤ (b₁ - b₀)⁻¹ * (y - x)) →
      R (x, along v₀ v₁ s) (y, along v₀ v₁ t)

namespace Leads

variable {R : ℚ × ℚ → ℚ × ℚ → Prop} (hR : c.Leads R) (h : c.IsOrdered)

include hR h

section Pieces

variable {i : Nat} {b₀ b₁ v₀ v₁ x y u w : ℚ} (hn : c.Neighbours i b₀ b₁ v₀ v₁)

include hn

theorem keyframes : R (b₀, v₀) (b₁, v₁) := by
  have hle : b₀ ≤ b₁ := h.le_of_le (Nat.le_succ i) hn.front hn.back
  have hlead := hR.along hn hle zero_le_one fun _ hlt => by
    rw [sub_zero, inv_mul_cancel₀ (sub_pos.mpr hlt).ne']
  rwa [along_zero, along_one] at hlead

theorem ahead (hi : i = 0) (hxy : x ≤ y) (hy : y < b₀) (hu : c.valueAt x = .ok u)
    (hw : c.valueAt y = .ok w) : R (x, u) (y, w) ∧ R (y, w) (b₀, v₀) := by
  have hle : b₀ ≤ b₁ := h.le_of_le (Nat.le_succ i) hn.front hn.back
  have hrate := rate_nonneg c.before hle
  have hrate' := rate_le c.before hle
  rw [h.valueAt_ahead hn hi (hxy.trans_lt hy), onward_ahead _ (hxy.trans_lt hy)] at hu
  rw [h.valueAt_ahead hn hi hy, onward_ahead _ hy] at hw
  cases hu
  cases hw
  constructor
  · refine hR.along hn hxy (by gcongr) fun _ _ => ?_
    rw [← mul_sub, sub_sub_sub_cancel_right]
    exact mul_le_mul_of_nonneg_right hrate' (sub_nonneg.mpr hxy)
  · have hway : rate c.before b₀ b₁ * (y - b₀) ≤ 0 :=
      mul_nonpos_of_nonneg_of_nonpos hrate (by linarith)
    have hlead := hR.along hn hy.le hway fun _ _ => by
      rw [zero_sub, ← mul_neg, neg_sub]
      exact mul_le_mul_of_nonneg_right hrate' (sub_nonneg.mpr hy.le)
    rwa [along_zero] at hlead

theorem beyond (hi : i + 2 = c.breakpoints.length) (hx : b₁ ≤ x) (hxy : x ≤ y)
    (hu : c.valueAt x = .ok u) (hw : c.valueAt y = .ok w) :
    R (b₁, v₁) (x, u) ∧ R (x, u) (y, w) := by
  have hle : b₀ ≤ b₁ := h.le_of_le (Nat.le_succ i) hn.front hn.back
  have hrate := rate_nonneg c.after hle
  have hrate' := rate_le c.after hle
  rw [h.valueAt_beyond hn hi hx, onward_beyond _ hx] at hu
  rw [h.valueAt_beyond hn hi (hx.trans hxy), onward_beyond _ (hx.trans hxy)] at hw
  cases hu
  cases hw
  constructor
  · have hway : 1 ≤ 1 + rate c.after b₀ b₁ * (x - b₁) :=
      le_add_of_nonneg_right (mul_nonneg hrate (sub_nonneg.mpr hx))
    have hlead := hR.along hn hx hway fun _ _ => by
      rw [add_sub_cancel_left]
      exact mul_le_mul_of_nonneg_right hrate' (sub_nonneg.mpr hx)
    rwa [along_one] at hlead
  · refine hR.along hn hxy (by gcongr) fun _ _ => ?_
    rw [add_sub_add_left_eq_sub, ← mul_sub, sub_sub_sub_cancel_right]
    exact mul_le_mul_of_nonneg_right hrate' (sub_nonneg.mpr hxy)

/-- Between two keyframes an easing that never leaves the unit interval and never falls leads from
the first of them to the second. -/
theorem between (hunit : KeepsUnit c.easing) (hfalls : NeverFalls c.easing) (hx : b₀ ≤ x)
    (hxy : x ≤ y) (hy : y < b₁) (hu : c.valueAt x = .ok u) (hw : c.valueAt y = .ok w) :
    R (b₀, v₀) (x, u) ∧ R (x, u) (y, w) ∧ R (y, w) (b₁, v₁) := by
  have hgap : 0 < b₁ - b₀ := by linarith
  have hshare := Neighbours.share_mem hx (hxy.trans_lt hy)
  have hshare' := Neighbours.share_mem (hx.trans hxy) hy
  have hle : (x - b₀) / (b₁ - b₀) ≤ (y - b₀) / (b₁ - b₀) :=
    div_le_div_of_nonneg_right (by linarith) hgap.le
  obtain ⟨s, hs, hs₀, -⟩ := hunit.exists_eased hshare.1 hshare.2.le
  obtain ⟨t, ht, -, ht₁⟩ := hunit.exists_eased hshare'.1 hshare'.2.le
  have hst : s ≤ t := hfalls.eased_le hshare.1 hle hshare'.2.le hs ht
  have hplain : c.easing = none → s = (x - b₀) / (b₁ - b₀) ∧ t = (y - b₀) / (b₁ - b₀) := by
    intro hnone
    rw [eased, hnone] at hs ht
    exact ⟨(Except.ok.inj hs).symm, (Except.ok.inj ht).symm⟩
  rw [h.valueAt_between hn hx (hxy.trans_lt hy), hs] at hu
  rw [h.valueAt_between hn (hx.trans hxy) hy, ht] at hw
  cases hu
  cases hw
  refine ⟨?_, ?_, ?_⟩
  · have hlead := hR.along hn hx hs₀ fun hnone _ => by
      rw [(hplain hnone).1, sub_zero, div_eq_inv_mul]
    rwa [along_zero] at hlead
  · refine hR.along hn hxy hst fun hnone _ => ?_
    rw [(hplain hnone).1, (hplain hnone).2, ← sub_div, sub_sub_sub_cancel_right, div_eq_inv_mul]
  · have hlead := hR.along hn hy.le ht₁ fun hnone _ => by
      rw [(hplain hnone).2, one_sub_div hgap.ne', sub_sub_sub_cancel_right, div_eq_inv_mul]
    rwa [along_one] at hlead

end Pieces

theorem keyframes_of_le {i j : Nat} {b v b' v' : ℚ} (hij : i ≤ j) (hb : c.breakpoints[i]? = some b)
    (hv : c.values[i]? = some v) (hb' : c.breakpoints[j]? = some b') (hv' : c.values[j]? = some v') :
    R (b, v) (b', v') := by
  induction j, hij using Nat.le_induction generalizing b' v' with
  | base =>
    obtain rfl : b = b' := Option.some.inj (hb.symm.trans hb')
    obtain rfl : v = v' := Option.some.inj (hv.symm.trans hv')
    exact hR.refl _
  | succ j _ ih =>
    obtain ⟨b₀, b₁, v₀, v₁, hn⟩ := h.exists_neighbours (List.getElem?_eq_some_iff.mp hb').1
    obtain rfl : b₁ = b' := Option.some.inj (hn.back.symm.trans hb')
    obtain rfl : v₁ = v' := Option.some.inj (hn.backValue.symm.trans hv')
    exact hR.trans (ih hn.front hn.frontValue) (hR.keyframes h hn)

section Places

variable (hunit : KeepsUnit c.easing) (hfalls : NeverFalls c.easing)

include hunit hfalls

/-- From a keyframe on to a place behind it. -/
theorem to_place {j : Nat} {b v y w : ℚ} (hb : c.breakpoints[j]? = some b)
    (hv : c.values[j]? = some v) (hby : b ≤ y) (hw : c.valueAt y = .ok w) : R (b, v) (y, w) := by
  obtain ⟨hj, -⟩ := List.getElem?_eq_some_iff.mp hb
  obtain ⟨i, b₀, b₁, v₀, v₁, hn, hcases⟩ := h.valueAt_cases y
  rcases hcases with ⟨hi, hbeyond, -⟩ | ⟨rfl, hahead, -⟩ | ⟨hlow, hhigh, -⟩
  · have hlast := hR.keyframes_of_le h (show j ≤ i + 1 by omega) hb hv hn.back hn.backValue
    exact hR.trans hlast (hR.beyond h hn hi hbeyond le_rfl hw hw).1
  · have hle : b₀ ≤ b := h.le_of_le (Nat.zero_le j) hn.front hb
    linarith
  · have hji : j ≤ i := by
      by_contra hlt
      have hle : b₁ ≤ b := h.le_of_le (show i + 1 ≤ j by omega) hn.back hb
      linarith
    have hfront := hR.keyframes_of_le h hji hb hv hn.front hn.frontValue
    exact hR.trans hfront (hR.between h hn hunit hfalls hlow le_rfl hhigh hw hw).1

/-- From a place on to a keyframe behind it. -/
theorem of_place {j : Nat} {b v x u : ℚ} (hb : c.breakpoints[j]? = some b)
    (hv : c.values[j]? = some v) (hxb : x < b) (hu : c.valueAt x = .ok u) : R (x, u) (b, v) := by
  obtain ⟨hj, -⟩ := List.getElem?_eq_some_iff.mp hb
  obtain ⟨i, b₀, b₁, v₀, v₁, hn, hcases⟩ := h.valueAt_cases x
  rcases hcases with ⟨hi, hbeyond, -⟩ | ⟨rfl, hahead, -⟩ | ⟨hlow, hhigh, -⟩
  · have hle : b ≤ b₁ := h.le_of_le (show j ≤ i + 1 by omega) hb hn.back
    linarith
  · have hfirst := hR.keyframes_of_le h (Nat.zero_le j) hn.front hn.frontValue hb hv
    exact hR.trans (hR.ahead h hn rfl le_rfl hahead hu hu).2 hfirst
  · have hij : i + 1 ≤ j := by
      by_contra hlt
      have hle : b ≤ b₀ := h.le_of_le (show j ≤ i by omega) hb hn.front
      linarith
    have hback := hR.keyframes_of_le h hij hn.back hn.backValue hb hv
    exact hR.trans (hR.between h hn hunit hfalls hlow le_rfl hhigh hu hu).2.2 hback

/-- What leads along every piece leads along the curve: two places share a piece, or there is a
keyframe behind the first that is not behind the second. -/
theorem valueAt {x y u w : ℚ} (hxy : x ≤ y) (hu : c.valueAt x = .ok u) (hw : c.valueAt y = .ok w) :
    R (x, u) (y, w) := by
  obtain ⟨i, b₀, b₁, v₀, v₁, hn, hcases⟩ := h.valueAt_cases x
  rcases hcases with ⟨hi, hbeyond, -⟩ | ⟨rfl, hahead, -⟩ | ⟨hlow, hhigh, -⟩
  · exact (hR.beyond h hn hi hbeyond hxy hu hw).2
  · rcases lt_or_ge y b₀ with hy | hy
    · exact (hR.ahead h hn rfl hxy hy hu hw).1
    · exact hR.trans (hR.of_place h hunit hfalls hn.front hn.frontValue hahead hu)
        (hR.to_place h hunit hfalls hn.front hn.frontValue hy hw)
  · rcases lt_or_ge y b₁ with hy | hy
    · exact (hR.between h hn hunit hfalls hlow hxy hy hu hw).2.1
    · exact hR.trans (hR.of_place h hunit hfalls hn.back hn.backValue hhigh hu)
        (hR.to_place h hunit hfalls hn.back hn.backValue hy hw)

end Places

end Leads

/-! ## Rising curves -/

/-- Where a multiple of the value rises, it rises along the way. -/
theorem mul_along_le {a v₀ v₁ s t : ℚ} (hrise : a * v₀ ≤ a * v₁) (hst : s ≤ t) :
    a * along v₀ v₁ s ≤ a * along v₀ v₁ t := by
  have hway : 0 ≤ a * (v₁ - v₀) * (t - s) := by
    refine mul_nonneg ?_ (sub_nonneg.mpr hst)
    rw [mul_sub]
    exact sub_nonneg.mpr hrise
  rw [← sub_nonneg, ← mul_sub, along_sub_along, ← mul_assoc]
  exact hway

/-- A multiple of the value that never falls from one keyframe to the next never falls along the
curve. -/
theorem leads_of_mul {a : ℚ} (hvalues : c.values.Pairwise fun v w => a * v ≤ a * w) :
    c.Leads fun p q => a * p.2 ≤ a * q.2 where
  refl _ := le_rfl
  trans := le_trans
  along {i b₀ b₁ v₀ v₁ x y s t} hn _ hst _ := by
    obtain ⟨hi, rfl⟩ := List.getElem?_eq_some_iff.mp hn.frontValue
    obtain ⟨hi', rfl⟩ := List.getElem?_eq_some_iff.mp hn.backValue
    exact mul_along_le (List.pairwise_iff_getElem.mp hvalues i (i + 1) hi hi' (Nat.lt_succ_self i))
      hst

/-! ## Slopes -/

/-- How steep the lines between neighbouring keyframes are. -/
def slopes (c : Curve ℚ) : Set ℚ :=
  {m | ∃ i b₀ b₁ v₀ v₁, c.Neighbours i b₀ b₁ v₀ v₁ ∧ m = |v₁ - v₀| / (b₁ - b₀)}

/-- One of the slopes is the largest. -/
theorem IsOrdered.exists_isGreatest_slopes (h : c.IsOrdered) : ∃ m, IsGreatest c.slopes m := by
  have htwo := h.two
  have hfinite : c.slopes.Finite := by
    refine ((Set.finite_lt_nat c.breakpoints.length).image fun i =>
      |c.values.getD (i + 1) 0 - c.values.getD i 0| /
        (c.breakpoints.getD (i + 1) 0 - c.breakpoints.getD i 0)).subset ?_
    rintro m ⟨i, b₀, b₁, v₀, v₁, hn, rfl⟩
    refine ⟨i, (List.getElem?_eq_some_iff.mp hn.front).1, ?_⟩
    simp [List.getD_eq_getElem?_getD, hn.front, hn.back, hn.frontValue, hn.backValue]
  obtain ⟨b₀, b₁, v₀, v₁, hn⟩ := h.exists_neighbours (i := 0) (by omega)
  exact Set.exists_max_image c.slopes id hfinite ⟨_, 0, b₀, b₁, v₀, v₁, hn, rfl⟩

/-- A curve that is not eased is nowhere steeper than the steepest line between its keyframes. -/
theorem leads_of_slopes (hstrict : c.breakpoints.Pairwise (· < ·)) (hplain : c.easing = none)
    {m : ℚ} (hm : m ∈ upperBounds c.slopes) :
    c.Leads fun p q => |q.2 - p.2| ≤ m * (q.1 - p.1) where
  refl _ := by simp
  trans {p q r} hpq hqr := by
    calc |r.2 - p.2| ≤ |r.2 - q.2| + |q.2 - p.2| := abs_sub_le _ _ _
      _ ≤ m * (r.1 - q.1) + m * (q.1 - p.1) := add_le_add hqr hpq
      _ = m * (r.1 - p.1) := by ring
  along {i b₀ b₁ v₀ v₁ x y s t} hn hxy hst hshare := by
    have hlt : b₀ < b₁ := by
      obtain ⟨hi, rfl⟩ := List.getElem?_eq_some_iff.mp hn.front
      obtain ⟨hi', rfl⟩ := List.getElem?_eq_some_iff.mp hn.back
      exact List.pairwise_iff_getElem.mp hstrict i (i + 1) hi hi' (Nat.lt_succ_self i)
    have hslope : |v₁ - v₀| / (b₁ - b₀) ≤ m := hm ⟨i, b₀, b₁, v₀, v₁, hn, rfl⟩
    have hway := sub_nonneg.mpr hxy
    calc |along v₀ v₁ t - along v₀ v₁ s| = |v₁ - v₀| * (t - s) := by
          rw [along_sub_along, abs_mul, abs_of_nonneg (sub_nonneg.mpr hst)]
      _ ≤ |v₁ - v₀| * ((b₁ - b₀)⁻¹ * (y - x)) := by
          gcongr
          exact hshare hplain hlt
      _ = |v₁ - v₀| / (b₁ - b₀) * (y - x) := by rw [← mul_assoc, div_eq_mul_inv]
      _ ≤ m * (y - x) := by gcongr

/-! ## Curves held at their ends -/

theorem exists_isLeast_isGreatest {α : Type} [LinearOrder α] {vs : List α} (h : vs ≠ []) :
    ∃ low high, IsLeast {v | v ∈ vs} low ∧ IsGreatest {v | v ∈ vs} high := by
  have hsome : {v | v ∈ vs}.Nonempty := List.exists_mem_of_ne_nil vs h
  obtain ⟨low, hlow⟩ := Set.exists_min_image _ id (List.finite_toSet vs) hsome
  obtain ⟨high, hhigh⟩ := Set.exists_max_image _ id (List.finite_toSet vs) hsome
  exact ⟨low, high, hlow, hhigh⟩

/-- A curve that is held at its ends keeps between its smallest and its largest value. -/
theorem IsOrdered.exists_valueAt_between (h : c.IsOrdered) (hbefore : c.before = .clamp)
    (hafter : c.after = .clamp) (hunit : KeepsUnit c.easing) :
    ∃ low high, IsLeast {v | v ∈ c.values} low ∧ IsGreatest {v | v ∈ c.values} high ∧
      ∀ x, ∃ y, c.valueAt x = .ok y ∧ low ≤ y ∧ y ≤ high := by
  have htwo := h.two
  have hsome : c.values ≠ [] := List.length_pos_iff.mp (h.counts ▸ by omega)
  obtain ⟨low, high, hlow, hhigh⟩ := exists_isLeast_isGreatest hsome
  refine ⟨low, high, hlow, hhigh, h.exists_valueAt_mem hbefore hafter ?_ ?_⟩
  · exact fun s hs hs' => hunit.exists_eased hs hs'.le
  · exact fun v hv => ⟨hlow.2 hv, hhigh.2 hv⟩

end Curve

theorem Waypoints.exists_coordinate_between {stops : List (Stop ℚ)} {value : Stop ℚ → ℚ}
    {c : Curve ℚ} (h : coordinate (stops.map Stop.frame) (stops.map value) = .ok c) :
    ∃ low high, IsLeast {v | v ∈ stops.map value} low ∧ IsGreatest {v | v ∈ stops.map value} high ∧
      ∀ x, ∃ y, c.valueAt x = .ok y ∧ low ≤ y ∧ y ≤ high := by
  obtain ⟨hordered, -, hvalues, hbefore, hafter, heasing⟩ := Curve.build_eq_ok_iff.mp h
  have hunit : Curve.KeepsUnit c.easing := by
    rw [heasing]
    rintro e ⟨⟩
  rw [← hvalues]
  exact hordered.exists_valueAt_between (Choice.known.inj hbefore).symm
    (Choice.known.inj hafter).symm hunit

namespace Curve

/-- A curve whose easing keeps the unit interval has a value everywhere. Held at its ends it keeps
between its smallest and its largest value, so a pointer stays in the box around its stops. If the
easing never falls, the curve rises everywhere where its values rise from one keyframe to the next,
and falls where they fall, whatever it does beyond its ends. -/
theorem curves_follow_their_values :
    (∀ (bs vs : List ℚ) (before after : Choice Extrapolation)
        (easing : Option (ℚ → Except Fault ℚ)) (c : Curve ℚ),
      build bs vs before after easing = .ok c → KeepsUnit easing →
        (before = .known .clamp → after = .known .clamp →
          ∃ low high, IsLeast {v | v ∈ vs} low ∧ IsGreatest {v | v ∈ vs} high ∧
            ∀ x, ∃ y, c.valueAt x = .ok y ∧ low ≤ y ∧ y ≤ high) ∧
        (NeverFalls easing → ∀ x y, x ≤ y →
          ∃ u w, c.valueAt x = .ok u ∧ c.valueAt y = .ok w ∧
            (vs.Pairwise (· ≤ ·) → u ≤ w) ∧ (vs.Pairwise (· ≥ ·) → w ≤ u))) ∧
    ∀ (stops : List (Stop ℚ)) (w : Waypoints ℚ), Waypoints.build stops = .ok w →
      ∃ left right top bottom, IsLeast {x | x ∈ stops.map Stop.x} left ∧
        IsGreatest {x | x ∈ stops.map Stop.x} right ∧ IsLeast {y | y ∈ stops.map Stop.y} top ∧
        IsGreatest {y | y ∈ stops.map Stop.y} bottom ∧
        ∀ frame, ∃ x y, w.position frame = .ok (x, y) ∧ left ≤ x ∧ x ≤ right ∧ top ≤ y ∧
          y ≤ bottom := by
  constructor
  · intro bs vs before after easing c hc hunit
    obtain ⟨h, rfl, rfl, hbefore, hafter, rfl⟩ := build_eq_ok_iff.mp hc
    refine ⟨fun hbefore' hafter' => ?_, fun hfalls x y hxy => ?_⟩
    · exact h.exists_valueAt_between (Choice.known.inj (hbefore.symm.trans hbefore'))
        (Choice.known.inj (hafter.symm.trans hafter')) hunit
    obtain ⟨u, hu⟩ := h.exists_valueAt_of_keepsUnit hunit x
    obtain ⟨w, hw⟩ := h.exists_valueAt_of_keepsUnit hunit y
    refine ⟨u, w, hu, hw, fun hrise => ?_, fun hfall => ?_⟩
    · have hleads : c.Leads fun p q => 1 * p.2 ≤ 1 * q.2 := leads_of_mul (by simpa using hrise)
      simpa using hleads.valueAt h hunit hfalls hxy hu hw
    · have hleads : c.Leads fun p q => -1 * p.2 ≤ -1 * q.2 := leads_of_mul (by simpa using hfall)
      simpa using hleads.valueAt h hunit hfalls hxy hu hw
  · intro stops w hw
    obtain ⟨-, hhorizontal, hvertical⟩ := Waypoints.build_eq_ok_iff.mp hw
    obtain ⟨left, right, hleft, hright, hx⟩ := Waypoints.exists_coordinate_between hhorizontal
    obtain ⟨top, bottom, htop, hbottom, hy⟩ := Waypoints.exists_coordinate_between hvertical
    refine ⟨left, right, top, bottom, hleft, hright, htop, hbottom, fun frame => ?_⟩
    obtain ⟨x, hx, hx'⟩ := hx frame
    obtain ⟨y, hy, hy'⟩ := hy frame
    refine ⟨x, y, ?_, hx'.1, hx'.2, hy'⟩
    rw [Waypoints.position, hx, ok_bind, hy, ok_bind]
    rfl

/-- An easing whose shape rises keeps the unit interval and never falls. -/
theorem rising_keepsUnit_neverFalls {e : Easing} (h : Rises e.shape) :
    KeepsUnit (some e.apply) ∧ NeverFalls (some e.apply) := by
  refine ⟨keepsUnit_map_apply (some e), ?_⟩
  rintro _ ⟨⟩ s t u w hs hst ht hu hw
  rw [e.apply_rat_of_mem hs (hst.trans ht)] at hu
  rw [e.apply_rat_of_mem (hs.trans hst) ht] at hw
  cases hu
  cases hw
  exact h.le hs hst ht

/-- A curve with a jump in front that is held at its ends, one with two jumps that goes on beyond
both ends, and a pointer that jumps. -/
theorem curves_follow_their_values_jumping :
    (∃ c : Curve ℚ, build [0, 0, 10] [3, 1, 2] (.known .clamp) (.known .clamp)
        (some Easing.linear.apply) = .ok c ∧ ∀ x, ∃ y, c.valueAt x = .ok y ∧ 1 ≤ y ∧ y ≤ 3) ∧
    (∃ c : Curve ℚ, build [0, 0, 10, 10, 20] [1, 2, 3, 4, 6] (.known .extend) (.known .extend)
        (some Easing.linear.apply) = .ok c ∧
      ∃ u w, c.valueAt (-3) = .ok u ∧ c.valueAt 25 = .ok w ∧ u ≤ w) ∧
    ∃ w : Waypoints ℚ, Waypoints.build [⟨.text "a", 0, 0, 9⟩, ⟨.text "b", 10, 5, 6⟩,
        ⟨.text "c", 10, 7, 8⟩] = .ok w ∧
      ∃ x y, w.position (15 / 2) = .ok (x, y) ∧ 0 ≤ x ∧ x ≤ 7 ∧ 6 ≤ y ∧ y ≤ 9 := by
  obtain ⟨hunit, hfalls⟩ := rising_keepsUnit_neverFalls (Easing.shape_rises (e := .linear) nofun)
  obtain ⟨hcurves, hstops⟩ := curves_follow_their_values
  refine ⟨?_, ?_, ?_⟩
  · have hordered : IsOrdered { breakpoints := [0, 0, 10], values := [3, 1, 2]
                                easing := some Easing.linear.apply } :=
      ⟨rfl, by decide, by norm_num⟩
    have hbuild := hordered.build_eq
    obtain ⟨low, high, hlow, hhigh, hall⟩ := (hcurves _ _ _ _ _ _ hbuild hunit).1 rfl rfl
    obtain rfl : low = 1 := hlow.unique (by norm_num [IsLeast, lowerBounds])
    obtain rfl : high = 3 := hhigh.unique (by norm_num [IsGreatest, upperBounds])
    exact ⟨_, hbuild, hall⟩
  · have hordered : IsOrdered { breakpoints := [0, 0, 10, 10, 20], values := [1, 2, 3, 4, 6]
                                before := .extend, after := .extend
                                easing := some Easing.linear.apply } :=
      ⟨rfl, by decide, by norm_num⟩
    have hbuild := hordered.build_eq
    obtain ⟨u, w, hu, hw, hrise, -⟩ :=
      (hcurves _ _ _ _ _ _ hbuild hunit).2 hfalls (-3) 25 (by norm_num)
    exact ⟨_, hbuild, u, w, hu, hw, hrise (by norm_num)⟩
  · obtain ⟨w, hw⟩ : ∃ w : Waypoints ℚ, Waypoints.build [⟨.text "a", 0, 0, 9⟩,
        ⟨.text "b", 10, 5, 6⟩, ⟨.text "c", 10, 7, 8⟩] = .ok w := ⟨_, rfl⟩
    obtain ⟨left, right, top, bottom, hleft, hright, htop, hbottom, hbox⟩ := hstops _ w hw
    obtain rfl : left = 0 := hleft.unique (by norm_num [IsLeast, lowerBounds])
    obtain rfl : right = 7 := hright.unique (by norm_num [IsGreatest, upperBounds])
    obtain rfl : top = 6 := htop.unique (by norm_num [IsLeast, lowerBounds])
    obtain rfl : bottom = 9 := hbottom.unique (by norm_num [IsGreatest, upperBounds])
    exact ⟨w, hw, hbox (15 / 2)⟩

/-- A curve that is not eased and does not jump is nowhere steeper than the steepest line between
two neighbouring keyframes, inside and beyond its ends. -/
theorem curves_no_steeper_than_keyframes (bs vs : List ℚ) (before after : Choice Extrapolation)
    (c : Curve ℚ) (hc : build bs vs before after none = .ok c) (hstrict : bs.Pairwise (· < ·)) :
    ∃ m, IsGreatest c.slopes m ∧ ∀ x y, ∃ u w, c.valueAt x = .ok u ∧ c.valueAt y = .ok w ∧
      |u - w| ≤ m * |x - y| := by
  obtain ⟨h, rfl, rfl, -, -, heasing⟩ := build_eq_ok_iff.mp hc
  have hunit : KeepsUnit c.easing := by
    rw [heasing]
    rintro e ⟨⟩
  have hfalls : NeverFalls c.easing := by
    rw [heasing]
    rintro e ⟨⟩
  obtain ⟨m, hm⟩ := h.exists_isGreatest_slopes
  have hleads := leads_of_slopes hstrict heasing hm.2
  refine ⟨m, hm, fun x y => ?_⟩
  obtain ⟨u, hu⟩ := h.exists_valueAt_of_keepsUnit hunit x
  obtain ⟨w, hw⟩ := h.exists_valueAt_of_keepsUnit hunit y
  refine ⟨u, w, hu, hw, ?_⟩
  rcases le_total x y with hxy | hyx
  · have hslope := hleads.valueAt h hunit hfalls hxy hu hw
    rwa [abs_sub_comm u w, abs_sub_comm x y, abs_of_nonneg (sub_nonneg.mpr hxy)]
  · have hslope := hleads.valueAt h hunit hfalls hyx hw hu
    rwa [abs_of_nonneg (sub_nonneg.mpr hyx)]

/-- A curve that rises by half a unit and then falls by two, on its way across the turn. -/
theorem curves_no_steeper_than_keyframes_turning :
    ∃ c : Curve ℚ, build [0, 10, 20] [0, 5, -15] (.known .extend) (.known .clamp) none = .ok c ∧
      ∃ u w, c.valueAt (-4) = .ok u ∧ c.valueAt 13 = .ok w ∧ |u - w| ≤ 2 * |-4 - 13| := by
  have hordered : IsOrdered { breakpoints := [0, 10, 20], values := [0, 5, -15]
                              before := .extend } := ⟨rfl, by decide, by norm_num⟩
  have hbuild := hordered.build_eq
  obtain ⟨m, hm, hslope⟩ :=
    curves_no_steeper_than_keyframes _ _ _ _ _ hbuild (by norm_num)
  obtain ⟨u, w, hu, hw, huw⟩ := hslope (-4) 13
  refine ⟨_, hbuild, u, w, hu, hw, huw.trans ?_⟩
  obtain ⟨i, b₀, b₁, v₀, v₁, hn, rfl⟩ := hm.1
  gcongr
  match i, hn with
  | 0, ⟨hb₀, hb₁, hv₀, hv₁⟩ =>
    cases hb₀
    cases hb₁
    cases hv₀
    cases hv₁
    norm_num
  | 1, ⟨hb₀, hb₁, hv₀, hv₁⟩ =>
    cases hb₀
    cases hb₁
    cases hv₀
    cases hv₁
    norm_num
  | i + 2, ⟨_, hb₁, _, _⟩ => cases hb₁

end Curve

end Showreel
