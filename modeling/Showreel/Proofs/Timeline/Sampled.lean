import Mathlib.Data.Rat.Floor
import Showreel.Proofs.Timeline.Asked

/-!
# Samples of a timeline

Sampling a range yields the frames at its places, one after the other, and there are as many of them
as steps begin in front of the end. In steps of any size the frames of the whole timeline are every
so many of all of them, and a channel holds what is read off them.
-/

namespace Showreel

open Arith (ofInt)

/-! ## Places of a range -/

namespace Places

theorem ediv_eq_ceil (way : Int) {step : Int} (hstep : 0 < step) :
    (way + step - 1) / step = ⌈(way : ℚ) / step⌉ := by
  have hstep' : (0 : ℚ) < step := by exact_mod_cast hstep
  have hlow := Int.ediv_mul_le (way + step - 1) hstep.ne'
  have hhigh := Int.lt_ediv_add_one_mul_self (way + step - 1) hstep
  generalize (way + step - 1) / step = count at hlow hhigh ⊢
  have hbelow : (count - 1) * step < way := by
    rw [sub_mul, one_mul]
    omega
  have habove : way ≤ count * step := by
    rw [add_mul, one_mul] at hhigh
    omega
  rw [eq_comm, Int.ceil_eq_iff, lt_div_iff₀ hstep', div_le_iff₀ hstep']
  exact ⟨by exact_mod_cast hbelow, by exact_mod_cast habove⟩

/-- A range in either direction has as many places as steps begin on its way. -/
theorem ofRange_eq (start stop : Int) {step : Int} (hstep : step ≠ 0) :
    ofRange start stop step =
      .ok { start, step, count := ⌈((stop - start : Int) : ℚ) / step⌉.toNat } := by
  unfold ofRange
  rw [if_neg hstep]
  dsimp only
  rcases lt_or_gt_of_ne hstep with hneg | hpos
  · have hcast : ((start - stop : Int) : ℚ) / (-step : Int) =
        ((stop - start : Int) : ℚ) / step := by
      rw [← neg_sub, Int.cast_neg, Int.cast_neg, neg_div_neg_eq]
    rw [if_neg (by omega), show (step.natAbs : Int) = -step by omega,
      ediv_eq_ceil _ (by omega), hcast]
  · rw [if_pos hpos, show (step.natAbs : Int) = step by omega, ediv_eq_ceil _ hpos]

variable {β : Type} {visit : Int → Except Fault β} {found : List β}

/-- Visiting places yields what is found at each of them, in order. -/
theorem mapM_eq_ok_iff_getElem? (p : Places) : p.mapM visit = .ok found ↔
    found.length = p.count ∧
      ∀ (k : Nat) x, found[k]? = some x → visit (p.start + k * p.step) = .ok x := by
  rw [mapM_eq, toList, mapM_eq_ok_iff, List.forall₂_map_left_iff, List.forall₂_iff_get]
  simp only [List.length_range, List.get_eq_getElem, List.getElem_range]
  constructor
  · rintro ⟨hcount, hfound⟩
    refine ⟨hcount.symm, fun k x hx => ?_⟩
    obtain ⟨hk, rfl⟩ := List.getElem?_eq_some_iff.mp hx
    exact hfound k (by omega) hk
  · rintro ⟨hcount, hfound⟩
    exact ⟨hcount.symm, fun k _ hk => hfound k _ (List.getElem?_eq_getElem hk)⟩

end Places

namespace Timeline

variable {t : Timeline Document}

/-! ## Frames of a range -/

theorem clampFrame_of_frameAt {place : Document} {frame : ComposedFrame Document}
    (h : t.frameAt place = .ok frame) : t.clampFrame place = .ok frame.globalFrame := by
  obtain ⟨clamped, hclamped, h⟩ := bind_eq_ok_iff.mp h
  obtain ⟨active, -, h⟩ := bind_eq_ok_iff.mp h
  obtain ⟨layers, -, h⟩ := bind_eq_ok_iff.mp h
  cases h
  exact hclamped

section Ranges

variable {start stop step n : Int} {frames : List (ComposedFrame Document)}

theorem sampleFrames_none (hduration : t.duration = .ok (.int n)) (start step : Document) :
    t.sampleFrames start none step = t.sampleFrames start (some (.int n)) step := by
  unfold sampleFrames
  rw [hduration]

theorem sampleFrames_eq (hstep : step ≠ 0) :
    t.sampleFrames (.int start) (some (.int stop)) (.int step) =
      Places.mapM { start, step, count := ⌈((stop - start : Int) : ℚ) / step⌉.toNat }
        fun place => t.frameAt (.int place) := by
  have hsample : t.sampleFrames (.int start) (some (.int stop)) (.int step) =
      Places.ofRange start stop step >>= fun places =>
        places.mapM fun place => t.frameAt (.int place) := rfl
  rw [hsample, Places.ofRange_eq start stop hstep, ok_bind]

/-- Sampling a range in either direction yields the frames at its places, in order. -/
theorem sampleFrames_eq_ok_iff (hstep : step ≠ 0) :
    t.sampleFrames (.int start) (some (.int stop)) (.int step) = .ok frames ↔
      (frames.length : Int) = max 0 ⌈((stop - start : Int) : ℚ) / step⌉ ∧
        ∀ (k : Nat) frame, frames[k]? = some frame →
          t.frameAt (.int (start + k * step)) = .ok frame := by
  rw [sampleFrames_eq hstep, Places.mapM_eq_ok_iff_getElem?, max_comm, ← Int.toNat_eq_max,
    Int.natCast_inj]

/-- There are no steps of size zero. -/
theorem ne_zero_of_sampleFrames
    (h : t.sampleFrames (.int start) (some (.int stop)) (.int step) = .ok frames) : step ≠ 0 := by
  intro hzero
  have hstopped : t.sampleFrames (.int start) (some (.int stop)) (.int 0) = .error .badValue := rfl
  rw [hzero, hstopped] at h
  contradiction

/-- Steps back never begin in front of an end that lies ahead. -/
theorem sampleFrames_eq_nil (hstep : step < 0) (hahead : start ≤ stop)
    (h : t.sampleFrames (.int start) (some (.int stop)) (.int step) = .ok frames) :
    frames = [] := by
  obtain ⟨hlength, -⟩ := (sampleFrames_eq_ok_iff hstep.ne).mp h
  have hway : (0 : ℚ) ≤ (stop - start : Int) := by exact_mod_cast sub_nonneg.mpr hahead
  have hback : (step : ℚ) ≤ 0 := by exact_mod_cast hstep.le
  have hceil : ⌈((stop - start : Int) : ℚ) / step⌉ ≤ 0 :=
    Int.ceil_le.mpr (by exact_mod_cast div_nonpos_of_nonneg_of_nonpos hway hback)
  rw [max_eq_left hceil] at hlength
  exact List.eq_nil_of_length_eq_zero (by exact_mod_cast hlength)

end Ranges

/-! ## Frames of the whole timeline -/

section Strides

variable {l : Layout} (h : t.Follows l) {step : Nat} (hstep : 1 ≤ step)
  {frames all : List (ComposedFrame Document)}

include h hstep

theorem Follows.sampleFrames_eq_ok_iff : t.sampleFrames (.int 0) none (.int step) = .ok frames ↔
    (frames.length : Int) = ⌈(l.duration : ℚ) / step⌉ ∧
      ∀ (k : Nat) frame, frames[k]? = some frame →
        t.frameAt (.int (k * step : Nat)) = .ok frame := by
  have hstep' : (step : Int) ≠ 0 := by omega
  have hceil : 0 ≤ ⌈(l.duration : ℚ) / step⌉ := by
    have hduration : (0 : ℚ) ≤ l.duration := by exact_mod_cast l.duration_pos.le
    exact Int.ceil_nonneg (by positivity)
  rw [sampleFrames_none h.duration_eq, Timeline.sampleFrames_eq_ok_iff hstep', sub_zero,
    Int.cast_natCast, max_eq_right hceil]
  simp only [zero_add, Nat.cast_mul]

/-- A step begins in front of the end exactly if there is a frame for it. -/
theorem Follows.lt_length_iff (hframes : t.sampleFrames (.int 0) none (.int step) = .ok frames)
    (k : Nat) : k < frames.length ↔ ((k * step : Nat) : Int) < l.duration := by
  have hstep' : (0 : ℚ) < step := by exact_mod_cast hstep
  have hlength := ((h.sampleFrames_eq_ok_iff hstep).mp hframes).1
  rw [← Int.ofNat_lt, hlength, Int.lt_ceil, lt_div_iff₀ hstep', Int.cast_natCast]
  norm_cast

theorem Follows.length_pos (hframes : t.sampleFrames (.int 0) none (.int step) = .ok frames) :
    1 ≤ frames.length := by
  have hduration := l.duration_pos
  exact (h.lt_length_iff hstep hframes 0).mpr (by omega)

theorem Follows.globalFrame_eq (hframes : t.sampleFrames (.int 0) none (.int step) = .ok frames)
    {k : Nat} {frame : ComposedFrame Document} (hframe : frames[k]? = some frame) :
    frame.globalFrame = .int (k * step : Nat) := by
  obtain ⟨hk, -⟩ := List.getElem?_eq_some_iff.mp hframe
  have hplace := ((h.sampleFrames_eq_ok_iff hstep).mp hframes).2 k frame hframe
  have hinside := (h.lt_length_iff hstep hframes k).mp hk
  rw [(h.frameAt_eq_ok_iff.mp hplace).1, l.clamp_eq_self (by omega) hinside]
  rfl

theorem Follows.globalFrames_eq (hframes : t.sampleFrames (.int 0) none (.int step) = .ok frames) :
    frames.map ComposedFrame.globalFrame =
      (List.range frames.length).map fun k : Nat => .int (k * step : Nat) := by
  refine List.ext_getElem (by simp) fun k hk _ => ?_
  rw [List.length_map] at hk
  rw [List.getElem_map, List.getElem_map, List.getElem_range]
  exact h.globalFrame_eq hstep hframes (List.getElem?_eq_getElem hk)

theorem Follows.globalFrames_nodup
    (hframes : t.sampleFrames (.int 0) none (.int step) = .ok frames) :
    (frames.map ComposedFrame.globalFrame).Nodup := by
  rw [h.globalFrames_eq hstep hframes]
  refine List.nodup_range.map fun k k' heq => ?_
  exact Nat.eq_of_mul_eq_mul_right hstep (Int.ofNat.inj (Document.int.inj heq))

/-- Longer steps skip frames, and change none of those that are left. -/
theorem Follows.getElem?_sample (hall : t.sampleFrames (.int 0) none (.int 1) = .ok all)
    (hframes : t.sampleFrames (.int 0) none (.int step) = .ok frames) (k : Nat) :
    frames[k]? = all[k * step]? := by
  have hiff : k < frames.length ↔ k * step < all.length := by
    rw [h.lt_length_iff hstep hframes, h.lt_length_iff le_rfl hall, mul_one]
  by_cases hk : k < frames.length
  · have hframe := ((h.sampleFrames_eq_ok_iff hstep).mp hframes).2 k _
      (List.getElem?_eq_getElem hk)
    have hsame := ((h.sampleFrames_eq_ok_iff le_rfl).mp hall).2 (k * step) _
      (List.getElem?_eq_getElem (hiff.mp hk))
    rw [mul_one, hframe] at hsame
    rw [List.getElem?_eq_getElem hk, List.getElem?_eq_getElem (hiff.mp hk), Except.ok.inj hsame]
  · rw [List.getElem?_eq_none (not_lt.mp hk), List.getElem?_eq_none (not_lt.mp (mt hiff.mpr hk))]

/-- If all frames can be composed, so can every so many of them. -/
theorem Follows.exists_sample (hall : t.sampleFrames (.int 0) none (.int 1) = .ok all) :
    ∃ frames, t.sampleFrames (.int 0) none (.int step) = .ok frames := by
  have hplaces := (h.sampleFrames_eq zero_lt_one).symm.trans hall
  rw [h.sampleFrames_eq hstep, exists_mapM_eq_ok_iff]
  intro place hplace
  refine exists_mapM_eq_ok_iff.mp ⟨all, hplaces⟩ place (List.map_subset _ ?_ hplace)
  simp

end Strides

/-! ## Channels -/

/-- A channel of the whole timeline holds what is read off its frames, as doubles. -/
theorem sampleChannel_eq_ok_iff {n : Int} (hduration : t.duration = .ok (.int n))
    (getter : ComposedFrame Document → Except Fault Document) {values : List Document} :
    t.sampleChannel getter none = .ok values ↔
      ∃ frames, t.sampleFrames (.int 0) none (.int 1) = .ok frames ∧
        frames.mapM (fun frame => getter frame >>= Arith.widen) = .ok values := by
  have hchannel : t.sampleChannel getter none = t.duration >>= fun stop => stop.index >>=
      fun stop => Places.ofRange 0 stop 1 >>= fun places => places.mapM fun place =>
        t.frameAt (.int place) >>= fun frame => getter frame >>= Arith.widen := rfl
  have hindex : (Document.int n).index = .ok n := rfl
  rw [hchannel, hduration, ok_bind, hindex, ok_bind, Places.ofRange_eq 0 n one_ne_zero, ok_bind,
    sampleFrames_none hduration, sampleFrames_eq one_ne_zero, Places.mapM_eq, Places.mapM_eq,
    mapM_bind_eq_ok_iff]

end Timeline

end Showreel
