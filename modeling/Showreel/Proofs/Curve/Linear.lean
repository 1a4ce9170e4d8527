import Showreel.Proofs.Curve.Shape

/-!
# Curves and their values

Which two keyframes a place is told by, and at what share of the way from the one to the other it
is, depends on the breakpoints, the policies and the easing alone. The values come in at the end, as
the mean of those of the two keyframes with the share as weight. So a curve through combined values
is the same combination of curves, at every place and whatever the curve does beyond its ends.
-/

namespace Showreel

namespace Curve

/-! ## Means of two values -/

/-- A combination of values is combined along the way. -/
theorem along_combine (p q u₀ u₁ v₀ v₁ s : ℚ) :
    along (p * u₀ + q * v₀) (p * u₁ + q * v₁) s = p * along u₀ u₁ s + q * along v₀ v₁ s := by
  unfold along
  ring

theorem along_self (v s : ℚ) : along v v s = v := by simp [along]

/-- What is made of as many values as there are keyframes is the mean of two neighbouring ones, with
a weight that does not depend on them. -/
structure Mixes (count i : Nat) (share : Except Fault ℚ) (f : List ℚ → Except Fault ℚ) : Prop where
  lt_count : i + 1 < count
  eq_along : ∀ (vs : List ℚ) (v₀ v₁ : ℚ), vs.length = count → vs[i]? = some v₀ →
    vs[i + 1]? = some v₁ → f vs = share >>= fun s => .ok (along v₀ v₁ s)

namespace Mixes

variable {count i : Nat} {share : Except Fault ℚ} {f : List ℚ → Except Fault ℚ} {us vs : List ℚ}
  {s : ℚ}

theorem exists_eq_along (h : Mixes count i share f) (hvs : vs.length = count) :
    ∃ v₀ v₁, vs[i]? = some v₀ ∧ vs[i + 1]? = some v₁ ∧
      f vs = share >>= fun s => .ok (along v₀ v₁ s) := by
  have hlt := h.lt_count
  have hfront := List.getElem?_eq_getElem (l := vs) (i := i) (by omega)
  have hback := List.getElem?_eq_getElem (l := vs) (i := i + 1) (by omega)
  exact ⟨_, _, hfront, hback, h.eq_along vs _ _ hvs hfront hback⟩

theorem combine (h : Mixes count i share f) (hus : us.length = count) (hvs : vs.length = count)
    (p q : ℚ) : f (List.zipWith (fun u v => p * u + q * v) us vs) =
      f us >>= fun y => f vs >>= fun z => .ok (p * y + q * z) := by
  obtain ⟨u₀, u₁, hu₀, hu₁, hu⟩ := h.exists_eq_along hus
  obtain ⟨v₀, v₁, hv₀, hv₁, hv⟩ := h.exists_eq_along hvs
  have hlength : (List.zipWith (fun u v => p * u + q * v) us vs).length = count := by
    rw [List.length_zipWith, hus, hvs, min_self]
  have hfront : (List.zipWith (fun u v => p * u + q * v) us vs)[i]? = some (p * u₀ + q * v₀) := by
    rw [List.getElem?_zipWith, hu₀, hv₀]
  have hback : (List.zipWith (fun u v => p * u + q * v) us vs)[i + 1]? =
      some (p * u₁ + q * v₁) := by
    rw [List.getElem?_zipWith, hu₁, hv₁]
  rw [h.eq_along _ _ _ hlength hfront hback, hu, hv]
  cases share with
  | error fault => rfl
  | ok s => simp only [ok_bind, along_combine]

theorem replicate (h : Mixes count i (.ok s) f) (v : ℚ) : f (List.replicate count v) = .ok v := by
  have hentry : ∀ j < count, (List.replicate count v)[j]? = some v := fun j hj => by
    rw [List.getElem?_replicate, if_pos hj]
  have hlt := h.lt_count
  rw [h.eq_along _ v v List.length_replicate (hentry i (by omega)) (hentry (i + 1) hlt), ok_bind,
    along_self]

/-- Values that add up to one are mixed to values that do. -/
theorem complement (h : Mixes count i (.ok s) f) (hvs : vs.length = count) :
    ∃ y z, f vs = .ok y ∧ f (vs.map fun v => 1 - v) = .ok z ∧ y + z = 1 := by
  obtain ⟨v₀, v₁, hv₀, hv₁, hv⟩ := h.exists_eq_along hvs
  have hfront : (vs.map fun v => 1 - v)[i]? = some (1 - v₀) := by
    rw [List.getElem?_map, hv₀, Option.map_some]
  have hback : (vs.map fun v => 1 - v)[i + 1]? = some (1 - v₁) := by
    rw [List.getElem?_map, hv₁, Option.map_some]
  have hsum : along v₀ v₁ s + along (1 - v₀) (1 - v₁) s = 1 := by
    unfold along
    ring
  exact ⟨_, _, hv, h.eq_along _ _ _ (by rw [List.length_map, hvs]) hfront hback, hsum⟩

end Mixes

/-- An easing, if there is one, has a value at every share of the way between two keyframes. -/
def Answers (easing : Option (ℚ → Except Fault ℚ)) : Prop :=
  ∀ e ∈ easing, ∀ s, 0 ≤ s → s < 1 → ∃ y, e s = .ok y

theorem Answers.exists_eased {c : Curve ℚ} (h : Answers c.easing) {s : ℚ} (hs : 0 ≤ s)
    (hs' : s < 1) : ∃ y, c.eased s = .ok y := by
  unfold eased
  cases heasing : c.easing with
  | none => exact ⟨s, rfl⟩
  | some e => exact h e heasing s hs hs'

/-- Curves with the same breakpoints, policies and easing mix their values alike. -/
theorem IsOrdered.exists_mixes {c : Curve ℚ} (h : c.IsOrdered) (x : ℚ) :
    ∃ i share, (Answers c.easing → ∃ s, share = .ok s) ∧
      Mixes c.breakpoints.length i share fun vs => valueAt { c with values := vs } x := by
  obtain ⟨i, b₀, b₁, v₀, v₁, hn, hcases⟩ := h.valueAt_cases x
  obtain ⟨hlt, -⟩ := List.getElem?_eq_some_iff.mp hn.back
  -- The breakpoints choose the piece, so curves with other values are on the same one.
  have hordered : ∀ vs : List ℚ, vs.length = c.breakpoints.length →
      IsOrdered { c with values := vs } := fun vs hvs => ⟨hvs.symm, h.two, h.sorted⟩
  have hneighbours : ∀ (vs : List ℚ) (w₀ w₁ : ℚ), vs[i]? = some w₀ → vs[i + 1]? = some w₁ →
      Neighbours { c with values := vs } i b₀ b₁ w₀ w₁ :=
    fun vs w₀ w₁ hw₀ hw₁ => ⟨hn.front, hn.back, hw₀, hw₁⟩
  rcases hcases with ⟨hi, hx, -⟩ | ⟨hi, hx, -⟩ | ⟨hx, hx', -⟩
  · refine ⟨i, .ok (1 + rate c.after b₀ b₁ * (x - b₁)), fun _ => ⟨_, rfl⟩, hlt, ?_⟩
    intro vs w₀ w₁ hvs hw₀ hw₁
    rw [(hordered vs hvs).valueAt_beyond (hneighbours vs w₀ w₁ hw₀ hw₁) hi hx,
      onward_beyond _ hx, ok_bind]
  · refine ⟨i, .ok (rate c.before b₀ b₁ * (x - b₀)), fun _ => ⟨_, rfl⟩, hlt, ?_⟩
    intro vs w₀ w₁ hvs hw₀ hw₁
    rw [(hordered vs hvs).valueAt_ahead (hneighbours vs w₀ w₁ hw₀ hw₁) hi hx,
      onward_ahead _ hx, ok_bind]
  · obtain ⟨hs, hs'⟩ := Neighbours.share_mem hx hx'
    refine ⟨i, c.eased ((x - b₀) / (b₁ - b₀)), fun hanswers => hanswers.exists_eased hs hs', hlt, ?_⟩
    intro vs w₀ w₁ hvs hw₀ hw₁
    exact (hordered vs hvs).valueAt_between (hneighbours vs w₀ w₁ hw₀ hw₁) hx hx'

end Curve

/-! ## Interpolation -/

section Interpolation

open Curve

variable {bs : List ℚ} (hsorted : bs.Pairwise (· ≤ ·)) (htwo : 2 ≤ bs.length)
  (before after : Extrapolation) (easing : Option (ℚ → Except Fault ℚ)) (x : ℚ)

include hsorted htwo

theorem exists_interpolate_mixes : ∃ i share, (Answers easing → ∃ s, share = .ok s) ∧
    Mixes bs.length i share fun vs =>
      interpolate x bs vs (.known before) (.known after) easing := by
  have hordered : ∀ vs : List ℚ, vs.length = bs.length →
      IsOrdered { breakpoints := bs, values := vs, before, after, easing } :=
    fun vs hvs => ⟨hvs.symm, htwo, hsorted⟩
  obtain ⟨i, share, htotal, hmixes⟩ := (hordered bs rfl).exists_mixes x
  refine ⟨i, share, htotal, hmixes.lt_count, fun vs v₀ v₁ hvs hv₀ hv₁ => ?_⟩
  have hbuild := (hordered vs hvs).build_eq
  dsimp only at hbuild
  rw [interpolate, hbuild, ok_bind]
  exact hmixes.eq_along vs v₀ v₁ hvs hv₀ hv₁

/-- Interpolation is linear in its values: a curve through a combination of two lists of values is
that combination of the two curves, and what an easing fails to give is missing from all three. As
long as the easing gives its values, every curve has one, a curve through equal values holds them
everywhere, and two curves whose values add up to one at every breakpoint do so everywhere. -/
theorem interpolation_is_linear :
    (∀ (us vs : List ℚ) (p q : ℚ), us.length = bs.length → vs.length = bs.length →
      interpolate x bs (List.zipWith (fun u v => p * u + q * v) us vs) (.known before)
          (.known after) easing = do
        let y ← interpolate x bs us (.known before) (.known after) easing
        let z ← interpolate x bs vs (.known before) (.known after) easing
        return p * y + q * z) ∧
    (Answers easing →
      (∀ vs : List ℚ, vs.length = bs.length →
        ∃ y, interpolate x bs vs (.known before) (.known after) easing = .ok y) ∧
      (∀ v : ℚ, interpolate x bs (List.replicate bs.length v) (.known before) (.known after)
        easing = .ok v) ∧
      ∀ vs : List ℚ, vs.length = bs.length →
        ∃ y z, interpolate x bs vs (.known before) (.known after) easing = .ok y ∧
          interpolate x bs (vs.map fun v => 1 - v) (.known before) (.known after) easing = .ok z ∧
            y + z = 1) := by
  obtain ⟨i, share, htotal, hmixes⟩ := exists_interpolate_mixes hsorted htwo before after easing x
  refine ⟨fun us vs p q hus hvs => hmixes.combine hus hvs p q, fun hanswers => ?_⟩
  obtain ⟨s, rfl⟩ := htotal hanswers
  refine ⟨fun vs hvs => ?_, hmixes.replicate, fun vs hvs => hmixes.complement hvs⟩
  obtain ⟨v₀, v₁, -, -, hvalue⟩ := hmixes.exists_eq_along hvs
  exact ⟨_, hvalue⟩

omit hsorted htwo

/-- Two ramps that jump and go on beyond the last breakpoint: twice the one less the other is the
ramp through twice the values of the one less those of the other. -/
theorem interpolation_is_linear_jumping :
    [(0 : ℚ), 10, 10, 20].Pairwise (· ≤ ·) ∧ 2 ≤ [(0 : ℚ), 10, 10, 20].length ∧
      Answers (some Easing.linear.apply) ∧
      ∀ x : ℚ, ∃ y z : ℚ,
        interpolate x [0, 10, 10, 20] [1, 2, 5, 3] (.known .clamp) (.known .extend)
          (some Easing.linear.apply) = .ok y ∧
        interpolate x [0, 10, 10, 20] [4, 4, 0, 8] (.known .clamp) (.known .extend)
          (some Easing.linear.apply) = .ok z ∧
        interpolate x [0, 10, 10, 20] [-2, 0, 10, -2] (.known .clamp) (.known .extend)
          (some Easing.linear.apply) = .ok (2 * y + -1 * z) := by
  have hsorted : [(0 : ℚ), 10, 10, 20].Pairwise (· ≤ ·) := by norm_num
  have hanswers : Answers (some Easing.linear.apply) := by
    rintro _ ⟨⟩ s - -
    exact ⟨_, Easing.linear.apply_rat s⟩
  refine ⟨hsorted, by decide, hanswers, fun x => ?_⟩
  obtain ⟨hcombine, htotal⟩ := interpolation_is_linear hsorted (by decide) .clamp .extend
    (some Easing.linear.apply) x
  obtain ⟨y, hy⟩ := (htotal hanswers).1 [1, 2, 5, 3] rfl
  obtain ⟨z, hz⟩ := (htotal hanswers).1 [4, 4, 0, 8] rfl
  have hboth := hcombine [1, 2, 5, 3] [4, 4, 0, 8] 2 (-1) rfl rfl
  have hvalues : List.zipWith (fun u v : ℚ => 2 * u + -1 * v) [1, 2, 5, 3] [4, 4, 0, 8] =
      [-2, 0, 10, -2] := by norm_num
  rw [hvalues, hy, hz] at hboth
  exact ⟨y, z, hy, hz, hboth⟩

end Interpolation

end Showreel
