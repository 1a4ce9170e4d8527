import Mathlib.Algebra.Order.Round
import Showreel.Colour
import Showreel.Proofs.Curve.Channels
import Showreel.Proofs.Curve.Shape

/-!
# Blended colours

In exact arithmetic colours along breakpoints blend into colours: every channel is rounded from a
curve that keeps between the smallest and the largest value of the channel, and rounding to the
nearest integer crosses no integer. So a breakpoint shows exactly the last of its colours.
-/

namespace Showreel

open Arith (ofInt)

namespace Colour

open Curve

/-! ## Colours -/

/-- Three integers from 0 to 255. -/
structure IsRgb (rgb : List Int) : Prop where
  three : rgb.length = 3
  range : ∀ x ∈ rgb, 0 ≤ x ∧ x ≤ 255

/-- A colour shows red, green and blue: written in hexadecimal, or given as these integers. -/
inductive Shows : Colour ℚ → List Int → Prop
  | hex {s : String} {rgb : List Int} : ofHex s = .ok rgb → IsRgb rgb → Shows (.hex s) rgb
  | channels {rgb : List Int} : IsRgb rgb → Shows (.channels (rgb.map ofInt)) rgb

theorem Shows.isRgb {colour : Colour ℚ} {rgb : List Int} (h : Shows colour rgb) : IsRgb rgb := by
  cases h with
  | hex _ hrgb => exact hrgb
  | channels hrgb => exact hrgb

theorem Shows.vector_eq {colour : Colour ℚ} {rgb : List Int} (h : Shows colour rgb) :
    colour.vector = .ok (rgb.map ofInt) := by
  cases h with
  | hex hhex _ =>
    rw [vector, hhex]
    rfl
  | channels _ => rfl

variable {colours : List (Colour ℚ)} {rgbs : List (List Int)}

theorem isRgb_of_shows (h : List.Forall₂ Shows colours rgbs) : ∀ rgb ∈ rgbs, IsRgb rgb := by
  induction h with
  | nil => exact nofun
  | cons hshows _ ih => exact List.forall_mem_cons.mpr ⟨hshows.isRgb, ih⟩

theorem mapM_vector_eq (h : List.Forall₂ Shows colours rgbs) :
    colours.mapM vector = .ok (rgbs.map (List.map ofInt)) := by
  rw [mapM_eq_ok_iff, List.forall₂_map_right_iff]
  exact h.imp fun _ _ => Shows.vector_eq

/-! ## Channels -/

/-- In exact arithmetic a channel is rounded to the nearest integer, a half upwards. -/
theorem roundChannel_rat (y : ℚ) : roundChannel y = .ok (round y) := by
  rw [roundChannel, Arith.half_rat, Arith.add_rat, ok_bind, Arith.floor_rat, round_eq]

/-- Rounding crosses no integer. -/
theorem round_mem {low high : Int} {y : ℚ} (hlow : low ≤ y) (hhigh : y ≤ high) :
    low ≤ round y ∧ round y ≤ high := by
  rw [round_eq, ← round_intCast (α := ℚ) high, round_eq]
  constructor
  · exact Int.le_floor.mpr (by linarith)
  · exact Int.floor_mono (by linarith)

/-- The curve of one channel of colours. -/
def channelCurve (bs : List ℚ) (vs : List Int) (easing : Option Easing) : Curve ℚ where
  breakpoints := bs
  values := vs.map ofInt
  easing := easing.map Easing.apply

section Channel

variable {bs : List ℚ} {vs : List Int} {easing : Option Easing}

theorem eased_channelCurve_zero : (channelCurve bs vs easing).eased 0 = .ok 0 := by
  cases easing with
  | none => rfl
  | some e =>
    change e.apply (0 : ℚ) = .ok 0
    rw [e.apply_rat_of_mem le_rfl zero_le_one, e.shape_zero]

/-- An integer blends the values of a channel along breakpoints: it is between the smallest and the
largest of them, and at a breakpoint it is the last value there. -/
structure Blends (bs : List ℚ) (vs : List Int) (value : ℚ) (x : Int) : Prop where
  between : ∃ low high, IsLeast {v | v ∈ vs} low ∧ IsGreatest {v | v ∈ vs} high ∧ low ≤ x ∧ x ≤ high
  last : ∀ i, IsLastAt bs value i → vs[i]? = some x

theorem exists_blends (easing : Option Easing) (hcounts : vs.length = bs.length)
    (htwo : 2 ≤ bs.length) (hsorted : bs.Pairwise (· ≤ ·)) (value : ℚ) :
    ∃ y, interpolate value bs (vs.map ofInt) (.known .clamp) (.known .clamp)
        (easing.map Easing.apply) = .ok y ∧ Blends bs vs value (round y) := by
  have hordered : (channelCurve bs vs easing).IsOrdered :=
    ⟨by rw [channelCurve, List.length_map, hcounts], htwo, hsorted⟩
  have hsome : vs ≠ [] := List.length_pos_iff.mp (by omega)
  obtain ⟨low, high, hlow, hhigh⟩ := exists_isLeast_isGreatest hsome
  have hvalues : ∀ v ∈ (channelCurve bs vs easing).values, (low : ℚ) ≤ v ∧ v ≤ high := by
    intro v hv
    obtain ⟨n, hn, rfl⟩ := List.mem_map.mp hv
    exact ⟨Int.cast_le.mpr (hlow.2 hn), Int.cast_le.mpr (hhigh.2 hn)⟩
  have heased : ∀ s, 0 ≤ s → s < 1 →
      ∃ y, (channelCurve bs vs easing).eased s = .ok y ∧ 0 ≤ y ∧ y ≤ 1 := fun s hs hs' =>
    (keepsUnit_map_apply easing).exists_eased (c := channelCurve bs vs easing) hs hs'.le
  obtain ⟨y, hy, hbetween⟩ := hordered.exists_valueAt_mem rfl rfl heased hvalues value
  refine ⟨y, ?_, ⟨low, high, hlow, hhigh, round_mem hbetween.1 hbetween.2⟩, fun i hi => ?_⟩
  · have hbuild : build bs (vs.map ofInt) (.known .clamp) (.known .clamp)
        (easing.map Easing.apply) = .ok (channelCurve bs vs easing) := hordered.build_eq
    rw [interpolate, hbuild, ok_bind, hy]
  · obtain ⟨hlt, -⟩ := List.getElem?_eq_some_iff.mp hi.here
    have hn := List.getElem?_eq_getElem (hcounts ▸ hlt : i < vs.length)
    have hvalue : (channelCurve bs vs easing).values[i]? = some (ofInt vs[i]) := by
      rw [channelCurve, List.getElem?_map, hn, Option.map_some]
    have hlast := hordered.valueAt_last eased_channelCurve_zero hi hvalue
    obtain rfl : y = ofInt vs[i] := Except.ok.inj (hy.symm.trans hlast)
    rw [hn, Arith.ofInt_rat, round_intCast]

end Channel

/-! ## Blends -/

/-- A blend has the three channels that are rounded from the curves of the channels. -/
theorem interpolateColour_eq_ok_iff {bs : List ℚ} {value : ℚ} {before after : Choice Extrapolation}
    {easing : Option (ℚ → Except Fault ℚ)} {result : List Int} (hne : rgbs ≠ [])
    (h : List.Forall₂ Shows colours rgbs) :
    interpolateColour value bs colours before after easing = .ok result ↔
      result.length = 3 ∧ ∀ c < 3, ∃ y, result[c]? = some (round y) ∧
        interpolate value bs ((channel rgbs c).map ofInt) before after easing = .ok y := by
  have hwidth : ∀ v ∈ rgbs.map (List.map (ofInt : Int → ℚ)), v.length = 3 := by
    intro v hv
    obtain ⟨rgb, hrgb, rfl⟩ := List.mem_map.mp hv
    rw [List.length_map, (isRgb_of_shows h rgb hrgb).three]
  have hvectors : rgbs.map (List.map (ofInt : Int → ℚ)) ≠ [] := by simpa using hne
  have hcurves (c : Nat) : (∃ y, result[c]? = some (round y) ∧
      interpolate value bs ((channel rgbs c).map ofInt) before after easing = .ok y) ↔
        ∃ x, result[c]? = some x ∧ (interpolate value bs ((channel rgbs c).map ofInt) before after
          easing >>= roundChannel) = .ok x := by
    simp only [bind_eq_ok_iff, roundChannel_rat, Except.ok.injEq]
    constructor
    · rintro ⟨y, hround, hy⟩
      exact ⟨_, hround, y, hy, rfl⟩
    · rintro ⟨_, hround, y, hy, rfl⟩
      exact ⟨y, hround, hy⟩
  simp only [hcurves]
  rw [← mapM_range_eq_ok_iff, mapM_bind_eq_ok_iff, interpolateColour, mapM_vector_eq h, ok_bind,
    blend, bind_eq_ok_iff, interpolateChannels_eq value before after easing hvectors hwidth]
  simp only [channel_map]

/-- What blends the channels of colours is in the range of colours. -/
theorem Blends.range {bs : List ℚ} {value : ℚ} {c : Nat} {x : Int}
    (h : Blends bs (channel rgbs c) value x) (hrgbs : ∀ rgb ∈ rgbs, IsRgb rgb) :
    0 ≤ x ∧ x ≤ 255 := by
  have hchannel : ∀ y ∈ channel rgbs c, 0 ≤ y ∧ y ≤ 255 := by
    intro y hy
    obtain ⟨rgb, hrgb, hcomponent⟩ := List.mem_filterMap.mp hy
    exact (hrgbs rgb hrgb).range y (List.mem_of_getElem? hcomponent)
  obtain ⟨low, high, hlow, hhigh, hlow', hhigh'⟩ := h.between
  exact ⟨(hchannel low hlow.1).1.trans hlow', hhigh'.trans (hchannel high hhigh.1).2⟩

/-- Where every channel is the last one there, the colour is the last one there. -/
theorem eq_of_blends {bs : List ℚ} {value : ℚ} {i : Nat} {result : List Int}
    (hrgbs : ∀ rgb ∈ rgbs, IsRgb rgb) (hlength : rgbs.length = bs.length)
    (hresult : result.length = 3)
    (hblends : ∀ c x, result[c]? = some x → Blends bs (channel rgbs c) value x)
    (hi : IsLastAt bs value i) : rgbs[i]? = some result := by
  obtain ⟨hlt, -⟩ := List.getElem?_eq_some_iff.mp hi.here
  have hrgb := List.getElem?_eq_getElem (by omega : i < rgbs.length)
  have hwidth : ∀ rgb ∈ rgbs, rgb.length = 3 := fun rgb hrgb => (hrgbs rgb hrgb).three
  rw [hrgb, Option.some.injEq]
  refine List.ext_getElem ?_ fun c hc hc' => ?_
  · rw [hwidth _ (List.getElem_mem _), hresult]
  · have hlast := (hblends c _ (List.getElem?_eq_getElem hc')).last i hi
    rw [getElem?_channel hwidth (hresult ▸ hc') hrgb] at hlast
    exact (List.getElem_eq_iff hc).mpr hlast

/-- In exact arithmetic colours along breakpoints in order blend into a colour at every place,
whichever easing bends the way. Each of its channels is rounded from the curve of that channel, and is
between the smallest and the largest value of the channel. At a breakpoint the last of the colours
there is to be seen. -/
theorem blends_within_palette (value : ℚ) (bs : List ℚ) (colours : List (Colour ℚ))
    (rgbs : List (List Int)) (easing : Option Easing) (hshows : List.Forall₂ Shows colours rgbs)
    (hcounts : bs.length = colours.length) (htwo : 2 ≤ bs.length)
    (hsorted : bs.Pairwise (· ≤ ·)) :
    ∃ result, interpolateColour value bs colours (.known .clamp) (.known .clamp)
        (easing.map Easing.apply) = .ok result ∧
      IsRgb result ∧
      (∀ c < 3, ∃ y, interpolate value bs ((channel rgbs c).map ofInt) (.known .clamp)
        (.known .clamp) (easing.map Easing.apply) = .ok y ∧ result[c]? = some (round y)) ∧
      (∀ c x, result[c]? = some x → ∃ low high, IsLeast {v | v ∈ channel rgbs c} low ∧
        IsGreatest {v | v ∈ channel rgbs c} high ∧ low ≤ x ∧ x ≤ high) ∧
      (value ∈ bs → ∃ i, IsLastAt bs value i ∧ rgbs[i]? = some result) := by
  have hrgbs := isRgb_of_shows hshows
  have hlength : rgbs.length = bs.length := hshows.length_eq.symm.trans hcounts.symm
  have hblends : ∀ c < 3, ∃ y, interpolate value bs ((channel rgbs c).map ofInt) (.known .clamp)
      (.known .clamp) (easing.map Easing.apply) = .ok y ∧
        Blends bs (channel rgbs c) value (round y) := by
    intro c hc
    have hcount := length_channel (fun rgb hrgb => (hrgbs rgb hrgb).three) hc
    exact exists_blends easing (hcount.trans hlength) htwo hsorted value
  obtain ⟨r, hr, hred⟩ := hblends 0 (by decide)
  obtain ⟨g, hg, hgreen⟩ := hblends 1 (by decide)
  obtain ⟨b, hb, hblue⟩ := hblends 2 (by decide)
  have hchannel : ∀ c x, [round r, round g, round b][c]? = some x →
      Blends bs (channel rgbs c) value x
    | 0, _, rfl => hred
    | 1, _, rfl => hgreen
    | 2, _, rfl => hblue
  have hcurves : ∀ c < 3, ∃ y, interpolate value bs ((channel rgbs c).map ofInt) (.known .clamp)
      (.known .clamp) (easing.map Easing.apply) = .ok y ∧
        [round r, round g, round b][c]? = some (round y) := by
    intro c hc
    interval_cases c
    · exact ⟨r, hr, rfl⟩
    · exact ⟨g, hg, rfl⟩
    · exact ⟨b, hb, rfl⟩
  have hresult : interpolateColour value bs colours (.known .clamp) (.known .clamp)
      (easing.map Easing.apply) = .ok [round r, round g, round b] := by
    rw [interpolateColour_eq_ok_iff (List.length_pos_iff.mp (by omega)) hshows]
    refine ⟨rfl, fun c hc => ?_⟩
    obtain ⟨y, hy, hround⟩ := hcurves c hc
    exact ⟨y, hround, hy⟩
  refine ⟨_, hresult, ⟨rfl, fun x hx => ?_⟩, hcurves, fun c x hx => (hchannel c x hx).between,
    fun hvalue => ?_⟩
  · obtain ⟨c, hc⟩ := List.mem_iff_getElem?.mp hx
    exact (hchannel c x hc).range hrgbs
  · obtain ⟨i, hi⟩ := exists_isLastAt hvalue
    exact ⟨i, hi, eq_of_blends hrgbs hlength rfl hchannel hi⟩

/-- A palette of both notations that jumps to black and bounces. -/
theorem blends_within_palette_bouncing :
    (∃ result, interpolateColour (4 : ℚ) [0, 10, 10, 20] [.hex "#eab308", .channels [34, 197, 94],
        .hex "000000", .channels [255, 0, 8]] (.known .clamp) (.known .clamp)
        (some Easing.easeOutBounce.apply) = .ok result ∧ IsRgb result) ∧
    interpolateColour (10 : ℚ) [0, 10, 10, 20] [.hex "#eab308", .channels [34, 197, 94],
        .hex "000000", .channels [255, 0, 8]] (.known .clamp) (.known .clamp)
        (some Easing.easeOutBounce.apply) = .ok [0, 0, 0] := by
  have hshows : List.Forall₂ Shows [.hex "#eab308", .channels [34, 197, 94], .hex "000000",
      .channels [255, 0, 8]] [[234, 179, 8], [34, 197, 94], [0, 0, 0], [255, 0, 8]] := by
    refine .cons (.hex (by decide +kernel) ⟨rfl, by decide⟩) (.cons ?_
      (.cons (.hex (by decide +kernel) ⟨rfl, by decide⟩) (.cons ?_ .nil)))
    · exact @Shows.channels [34, 197, 94] ⟨rfl, by decide⟩
    · exact @Shows.channels [255, 0, 8] ⟨rfl, by decide⟩
  have hsorted : [0, 10, 10, 20].Pairwise (· ≤ · : ℚ → ℚ → Prop) := by norm_num
  have hpalette (value : ℚ) := blends_within_palette value _ _ _ (some .easeOutBounce) hshows
    rfl (by decide) hsorted
  obtain ⟨early, hearly, hrgb, -⟩ := hpalette 4
  obtain ⟨black, hblack, -, -, -, hlast⟩ := hpalette 10
  have hjump : IsLastAt [0, 10, 10, 20] (10 : ℚ) 2 := by
    refine ⟨rfl, fun j hj => ?_⟩
    match j, hj with
    | 3, _ => norm_num
    | j + 4, _ => simp
  obtain ⟨i, hi, hrgb'⟩ := hlast (by simp)
  obtain rfl : i = 2 := hi.unique hjump
  obtain rfl := Option.some.inj hrgb'
  exact ⟨⟨early, hearly, hrgb⟩, hblack⟩

end Colour

end Showreel
