import Showreel.Proofs.Curve.Refused

/-!
# Curves of vectors

Vectors along breakpoints are refused where there are none or where two of them differ in length.
Whether the breakpoints and the policies fit is left to the curves of the single channels: so
vectors without a channel pass with any breakpoints, while those with one are refused with its
curve. Vectors that are not refused are mapped channel by channel.
-/

namespace Showreel

/-! ## Vectors -/

section Vectors

open Curve

variable {α : Type} {bs : List α} {vectors : List (List α)} {width : Nat}

/-- The components of vectors at one position. -/
def channel (vectors : List (List α)) (c : Nat) : List α := vectors.filterMap fun v => v[c]?

/-- Two vectors differ in length. -/
def Ragged (vectors : List (List α)) : Prop :=
  ∃ v ∈ vectors, ∃ w ∈ vectors, v.length ≠ w.length

/-- Vectors of one length have a component each in every channel. -/
theorem mapM_entryAt_eq (hwidth : ∀ v ∈ vectors, v.length = width) {c : Nat} (hc : c < width) :
    vectors.mapM (fun v => entryAt v c) = .ok (channel vectors c) := by
  rw [mapM_eq_ok_iff]
  induction vectors with
  | nil => exact .nil
  | cons v rest ih =>
    rw [List.forall_mem_cons] at hwidth
    have hentry := List.getElem?_eq_getElem (l := v) (i := c) (by omega)
    rw [channel, List.filterMap_cons, hentry]
    exact .cons (entryAt_eq_ok_iff.mpr hentry) (ih hwidth.2)

theorem length_channel (hwidth : ∀ v ∈ vectors, v.length = width) {c : Nat} (hc : c < width) :
    (channel vectors c).length = vectors.length :=
  (mapM_eq_ok_iff.mp (mapM_entryAt_eq hwidth hc)).length_eq.symm

/-- Of vectors of one length, each has its components in the channels at its own position. -/
theorem getElem?_channel (hwidth : ∀ v ∈ vectors, v.length = width) {c : Nat} (hc : c < width)
    {i : Nat} {v : List α} (hv : vectors[i]? = some v) : (channel vectors c)[i]? = v[c]? := by
  have hcomponents := mapM_eq_ok_iff.mp (mapM_entryAt_eq hwidth hc)
  obtain ⟨hi, rfl⟩ := List.getElem?_eq_some_iff.mp hv
  have hi' : i < (channel vectors c).length := length_channel hwidth hc ▸ hi
  have hentry : entryAt vectors[i] c = .ok (channel vectors c)[i] := hcomponents.get hi hi'
  rw [List.getElem?_eq_getElem hi', entryAt_eq_ok_iff.mp hentry]

theorem channel_map {β : Type} (f : α → β) (vectors : List (List α)) (c : Nat) :
    channel (vectors.map (List.map f)) c = (channel vectors c).map f := by
  simp [channel, List.filterMap_map, List.map_filterMap]

theorem anyOther_eq (width : Nat) (vectors : List (List α)) :
    anyOther width (vectors.map fun v => .ok v.length) =
      .ok (vectors.any fun v => v.length ≠ width) := by
  induction vectors with
  | nil => rfl
  | cons v rest ih =>
    rw [List.map_cons, anyOther, ok_bind, ih, List.any_cons]
    by_cases hv : v.length = width
    · simp [hv]
    · simp [hv]

/-- One result comes from each channel, and what stops the whole is what stops the first of them
that fails. -/
structure Channelwise (width : Nat) (channel : Nat → Except Fault α)
    (result : Except Fault (List α)) : Prop where
  eq_ok_iff : ∀ ys, result = .ok ys ↔
    ys.length = width ∧ ∀ c < width, ∃ y, ys[c]? = some y ∧ channel c = .ok y
  fault : ∀ fault, result = .error fault →
    ∃ c < width, channel c = .error fault ∧ ∀ c' < c, ∃ y, channel c' = .ok y

theorem channelwise_mapM_range (f : Nat → Except Fault α) :
    Channelwise width f ((List.range width).mapM f) :=
  ⟨fun _ => mapM_range_eq_ok_iff, fun _ => exists_of_mapM_range_eq_error⟩

variable [Arith α] (frame : α) (before after : Choice Extrapolation)
  (easing : Option (α → Except Fault α))

theorem interpolateChannels_ragged (h : Ragged vectors) :
    interpolateChannels frame (.ok bs) vectors before after easing = reject .unequalVectors := by
  obtain ⟨v, hv, w, hw, hne⟩ := h
  cases vectors with
  | nil => cases hv
  | cons u rest =>
    have hother : (u :: rest).any (fun x => x.length ≠ u.length) = true := by
      rw [List.any_eq_true]
      by_cases hu : v.length = u.length
      · exact ⟨w, hw, by simpa using fun h => hne (hu.trans h.symm)⟩
      · exact ⟨v, hv, by simpa using hu⟩
    have hdiffer := anyOther_eq u.length (u :: rest)
    rw [hother, List.map_cons] at hdiffer
    rw [interpolateChannels, List.map_cons, interpolateAcross, ok_bind, hdiffer, ok_bind]
    rfl

theorem interpolateChannels_eq (hne : vectors ≠ []) (hwidth : ∀ v ∈ vectors, v.length = width) :
    interpolateChannels frame (.ok bs) vectors before after easing =
      (List.range width).mapM fun c =>
        interpolate frame bs (channel vectors c) before after easing := by
  cases vectors with
  | nil => exact absurd rfl hne
  | cons u rest =>
    obtain rfl := hwidth u List.mem_cons_self
    have hother : (u :: rest).any (fun x => x.length ≠ u.length) = false := by
      rw [List.any_eq_false]
      intro v hv
      simpa using hwidth v hv
    have hsame := anyOther_eq u.length (u :: rest)
    rw [hother, List.map_cons] at hsame
    rw [interpolateChannels, List.map_cons, interpolateAcross, ok_bind, hsame, ok_bind]
    refine mapM_congr fun c hc => ?_
    rw [mapM_entryAt_eq hwidth (List.mem_range.mp hc)]
    rfl

/-- Where the curve of a channel is refused under one condition, vectors are refused if there are
none, if two differ in length, or if there is a channel and the condition holds. -/
theorem rejected_interpolateChannels_iff {q : Prop}
    (hcurve : ∀ vs : List α, vs.length = vectors.length →
      (Rejected (interpolate frame bs vs before after easing) ↔ q)) :
    Rejected (interpolateChannels frame (.ok bs) vectors before after easing) ↔
      vectors = [] ∨ Ragged vectors ∨ (∃ v ∈ vectors, v ≠ []) ∧ q := by
  by_cases hnil : vectors = []
  · subst hnil
    exact iff_of_true (rejected_reject _) (.inl rfl)
  by_cases hragged : Ragged vectors
  · rw [interpolateChannels_ragged frame before after easing hragged]
    exact iff_of_true (rejected_reject _) (.inr (.inl hragged))
  obtain ⟨u, hu⟩ := List.exists_mem_of_ne_nil _ hnil
  have hwidth : ∀ v ∈ vectors, v.length = u.length := fun v hv =>
    not_not.mp fun h => hragged ⟨v, hv, u, hu, h⟩
  have hsome : List.range u.length ≠ [] ↔ ∃ v ∈ vectors, v ≠ [] := by
    rw [Ne, List.range_eq_nil, List.length_eq_zero_iff]
    refine ⟨fun h => ⟨u, hu, h⟩, fun ⟨v, hv, h⟩ hnil => h ?_⟩
    rw [← List.length_eq_zero_iff, hwidth v hv, hnil, List.length_nil]
  rw [interpolateChannels_eq frame before after easing hnil hwidth, rejected_mapM_iff fun c hc =>
    hcurve _ (length_channel hwidth (List.mem_range.mp hc)), hsome, or_iff_right hnil,
    or_iff_right hragged]

end Vectors

/-! ## Vectors in documents -/

namespace Document

/-- Lists of components are the vectors that they are. -/
theorem interpolateVectors_lists (frame : Document) (bs : List Document)
    (vectors : List (List Document)) (before after : Choice Extrapolation)
    (easing : Option (Document → Except Fault Document)) :
    interpolateVectors frame (.list bs) (.list (vectors.map .list)) before after easing =
      interpolateChannels frame (.ok bs) vectors before after easing := by
  cases vectors with
  | nil => rfl
  | cons v rest =>
    have hvectors : vectorsOf (.list ((v :: rest).map .list)) = .ok ((v :: rest).map .list) := rfl
    have hsizes : ((v :: rest).map Document.list).map size =
        (v :: rest).map fun w => .ok w.length := by
      rw [List.map_map]
      rfl
    have hchannel : ∀ c, ((v :: rest).map Document.list).mapM (fun w => w.part c) =
        (v :: rest).mapM fun w => entryAt w c := fun c => List.mapM_map
    unfold interpolateVectors interpolateChannels
    rw [hvectors, ok_bind, hsizes]
    simp only [hchannel]
    rfl

/-- Numbers can be compared. -/
theorem comparable_of_numbers {bs : List Document} (h : ∀ b ∈ bs, b.number?.isSome) :
    Curve.Comparable bs := by
  intro v hv w hw
  obtain ⟨m, hm⟩ := Option.isSome_iff_exists.mp (h v hv)
  obtain ⟨n, hn⟩ := Option.isSome_iff_exists.mp (h w hw)
  have hnumbers : v.compareBy Number.lt (· == .lt) w =
      onNumbers (fun x y => .ok (x.lt y)) v w := by
    refine compareBy.eq_3 _ _ _ _ ?_ ?_
    · rintro s t rfl -
      cases hm
    · rintro xs ys rfl -
      cases hm
  exact ⟨m.lt n, by rw [show Arith.lt v w = _ from hnumbers, onNumbers, hm, hn]⟩

theorem number?_of_calculate {op : Number → Number → Except Fault Number} {v w x : Document}
    (h : calculate op v w = .ok x) : x.number?.isSome := by
  unfold calculate at h
  split at h
  case h_1 m n _ _ =>
    cases hop : op m n with
    | error fault =>
      rw [hop] at h
      cases h
    | ok r =>
      rw [hop] at h
      cases h
      cases r <;> rfl
  case h_2 => cases h

/-- What is added to a number gives a number, if anything. -/
theorem number?_of_add {v w x : Document} (hv : v.number?.isSome) (h : Arith.add v w = .ok x) :
    x.number?.isSome := by
  have hadd : v.add w = calculate Number.add v w := by
    unfold add
    split
    · cases hv
    · cases hv
    · rfl
  exact number?_of_calculate (hadd.symm.trans h)

theorem number?_of_widen {v x : Document} (h : Arith.widen v = .ok x) : x.number?.isSome := by
  change Document.double <$> v.toDouble = .ok x at h
  cases hx : v.toDouble with
  | error fault =>
    rw [hx] at h
    cases h
  | ok d =>
    rw [hx] at h
    cases h
    rfl

/-- What stems from numbers is a number. -/
theorem number?_of_stems {vs : List Document} (hvs : ∀ v ∈ vs, v.number?.isSome) {y : Document}
    (h : Curve.Stems vs y) : y.number?.isSome := by
  obtain ⟨v, hv, hwiden | ⟨step, hadd⟩⟩ := h
  · exact number?_of_widen hwiden
  · exact number?_of_add (hvs v hv) hadd

end Document

/-! ## Refused or mapped -/

open Curve Extrapolation

/-- Vectors are refused exactly if there are none, if two of them differ in length, or if there is a
channel and the breakpoints, the number of vectors and the policies make no keyframe set whose
mistake can be told. Without a channel the breakpoints and policies do not matter. Vectors of one
length are mapped channel by channel, each through the curve of its components: numbers to numbers,
and what fails is the first curve that does. In exact arithmetic no curve through a keyframe set
fails, and there is one value in each channel. -/
theorem channels_refused_or_mapped (before after : Document) :
    (∀ (frame : Document) (bs : List Document) (vectors : List (List Document))
        (easing : Option (Document → Except Fault Document)),
      (∀ b ∈ bs, b.number?.isSome) → (∀ e ∈ easing, ∀ s, RejectsNothing (e s)) →
      (Rejected (interpolateVectors frame (.list bs) (.list (vectors.map .list)) (asked before)
          (asked after) easing) ↔
        vectors = [] ∨ Ragged vectors ∨ (∃ v ∈ vectors, v ≠ []) ∧
          ¬ Accepts bs vectors.length before after ∧
            ¬ Untold bs vectors.length before after) ∧
      ∀ width, vectors ≠ [] → (∀ v ∈ vectors, v.length = width) →
        Channelwise width
          (fun c => interpolate frame bs (channel vectors c) (asked before) (asked after) easing)
          (interpolateVectors frame (.list bs) (.list (vectors.map .list)) (asked before)
            (asked after) easing) ∧
        ((∀ v ∈ vectors, ∀ x ∈ v, x.number?.isSome) → ∀ ys,
          interpolateVectors frame (.list bs) (.list (vectors.map .list)) (asked before)
            (asked after) easing = .ok ys → ∀ y ∈ ys, y.number?.isSome)) ∧
    ∀ (frame : ℚ) (bs : List ℚ) (vectors : List (List ℚ))
        (easing : Option (ℚ → Except Fault ℚ)),
      Answers easing →
      (Rejected (interpolateChannels frame (.ok bs) vectors (asked before) (asked after) easing) ↔
        vectors = [] ∨ Ragged vectors ∨ (∃ v ∈ vectors, v ≠ []) ∧
          ¬ Accepts bs vectors.length before after ∧
            ¬ Untold bs vectors.length before after) ∧
      ∀ width, vectors ≠ [] → (∀ v ∈ vectors, v.length = width) →
        width = 0 ∨ Accepts bs vectors.length before after →
        ∃ ys, interpolateChannels frame (.ok bs) vectors (asked before) (asked after) easing =
          .ok ys ∧ ys.length = width ∧ ∀ c < width, ∃ y, ys[c]? = some y ∧
            interpolate frame bs (channel vectors c) (asked before) (asked after) easing = .ok y := by
  refine ⟨fun frame bs vectors easing hbs heasing => ⟨?_, fun width hne hwidth => ?_⟩,
    fun frame bs vectors easing hanswers => ⟨?_, fun width hne hwidth hfit => ?_⟩⟩
  · rw [Document.interpolateVectors_lists]
    refine rejected_interpolateChannels_iff frame _ _ easing fun vs hvs => ?_
    rw [← hvs]
    exact rejected_interpolate_iff (Document.comparable_of_numbers hbs) heasing
  · rw [Document.interpolateVectors_lists, interpolateChannels_eq frame _ _ easing hne hwidth]
    refine ⟨channelwise_mapM_range _, fun hnumbers ys hys y hy => ?_⟩
    obtain ⟨c, -, hc⟩ := exists_of_mem_mapM hys hy
    refine Document.number?_of_stems (fun v hv => ?_) (stems_of_interpolate heasing hc)
    obtain ⟨w, hw, hwv⟩ := List.mem_filterMap.mp hv
    exact hnumbers w hw v (List.mem_of_getElem? hwv)
  · refine rejected_interpolateChannels_iff frame _ _ easing fun vs hvs => ?_
    rw [← hvs]
    exact rejected_interpolate_rat_iff hanswers frame
  · have hall : ∀ c ∈ List.range width, ∃ y,
        interpolate frame bs (channel vectors c) (asked before) (asked after) easing = .ok y := by
      intro c hc
      have hlt := List.mem_range.mp hc
      have haccepts := hfit.resolve_left (by omega)
      rw [← length_channel hwidth hlt] at haccepts
      exact haccepts.exists_interpolate hanswers frame
    obtain ⟨ys, hys⟩ := exists_mapM_eq_ok_iff.mpr hall
    refine ⟨ys, ?_, mapM_range_eq_ok_iff.mp hys⟩
    rw [interpolateChannels_eq frame _ _ easing hne hwidth, hys]

/-- Breakpoints that fall are refused with two channels, and two channels of numbers in order are
mapped. -/
theorem channels_refused_or_mapped_paired :
    Rejected (interpolateVectors (.int 0) (.list [.int 1, .int 0])
      (.list [.list [.int 3, .int 4], .list [.int 5, .int 6]]) (asked (.text "clamp"))
      (asked (.text "clamp")) (some Easing.smoothStep.apply)) ∧
    ∃ ys, interpolateChannels (5 : ℚ) (.ok [0, 10]) [[0, 8], [4, 4]] (asked (.text "clamp"))
        (asked (.text "extend")) none = .ok ys ∧ ys.length = 2 := by
  constructor
  · obtain ⟨hdocuments, -⟩ := channels_refused_or_mapped (.text "clamp") (.text "clamp")
    obtain ⟨hrejected, -⟩ := hdocuments (.int 0) [.int 1, .int 0]
      [[.int 3, .int 4], [.int 5, .int 6]] (some Easing.smoothStep.apply)
      (by simp [Document.number?]) (by
        rintro e ⟨⟩ s
        exact Easing.rejectsNothing_apply _ s)
    have hfalls : Falls [Document.int 1, .int 0] := ⟨0, .int 1, .int 0, rfl, rfl, rfl⟩
    refine hrejected.mpr (.inr (.inr ⟨⟨_, List.mem_cons_self, List.cons_ne_nil _ _⟩, fun h => ?_, fun h => ?_⟩))
    · exact h.ordered hfalls
    · cases h.unwritten with
      | falling _ unwritten =>
        obtain ⟨b, hb, hstuck⟩ := unwritten
        rcases List.mem_pair.mp hb with rfl | rfl
        · exact hstuck ⟨"1", by decide +kernel⟩
        · exact hstuck ⟨"0", by decide +kernel⟩
      | before ordered => exact ordered hfalls
      | after ordered => exact ordered hfalls
  · have haccepts : Accepts [(0 : ℚ), 10] 2 (.text "clamp") (.text "extend") :=
      ⟨rfl, le_rfl, not_not.mpr (by norm_num) ∘ falls_rat.mp, ⟨.clamp, rfl⟩, .extend, rfl⟩
    obtain ⟨-, hexact⟩ := channels_refused_or_mapped (.text "clamp") (.text "extend")
    obtain ⟨-, hmapped⟩ := hexact 5 [0, 10] [[0, 8], [4, 4]] none fun _ h =>
      absurd h (Option.not_mem_none _)
    obtain ⟨ys, hys, hlength, -⟩ := hmapped 2 (List.cons_ne_nil _ _) (by simp) (.inr haccepts)
    exact ⟨ys, hys, hlength⟩

/-- Two vectors without a channel are mapped along breakpoints that fall, though these make no
keyframe set. -/
theorem widthless_not_refused :
    interpolateVectors (.int 0) (.list [.int 1, .int 0]) (.list [.list [], .list []])
        (asked (.text "clamp")) (asked (.text "clamp")) none = .ok [] ∧
      ¬ Accepts [Document.int 1, .int 0] 2 (.text "clamp") (.text "clamp") :=
  ⟨rfl, fun h => h.ordered ⟨0, .int 1, .int 0, rfl, rfl, rfl⟩⟩

end Showreel
