import Showreel.Proofs.Number.Floor
import Showreel.Proofs.Scene.Parts

/-!
# Text that is typed to its end

How many characters are shown is found by rounding a quotient of frames down, and when the last one
is there by multiplying. The two meet: for frames of at most 53 bits the whole text is shown exactly
from the finish on. A field that is typed into is complete from there on as well, and its caret is
to be seen from the start until shortly after.
-/

namespace Showreel

open Arith (ofInt)

namespace Typing

/-- The number of characters of a text that have been typed at a frame. -/
def count (text : String) (per start f : Int) : Int :=
  if f < start then 0 else min text.length ((f - start) / per)

/-- The characters of a text that have been typed at a frame. -/
def typed (text : String) (per start f : Int) : String :=
  String.ofList (text.toList.take (count text per start f).toNat)

section Count

variable {text : String} {per start f g : Int}

theorem count_le_length : count text per start f ≤ text.length := by
  unfold count
  split
  case isTrue => exact Int.natCast_nonneg _
  case isFalse => exact min_le_left _ _

variable (hper : 1 ≤ per)

include hper

theorem count_nonneg : 0 ≤ count text per start f := by
  unfold count
  split
  case isTrue => exact le_rfl
  case isFalse h =>
    exact le_min (Int.natCast_nonneg _) (Int.ediv_nonneg (by omega) (by omega))

theorem count_mono (hfg : f ≤ g) : count text per start f ≤ count text per start g := by
  by_cases hf : f < start
  · rw [count, if_pos hf]
    exact count_nonneg hper
  · rw [count, count, if_neg hf, if_neg (by omega)]
    exact min_le_min_left _ (Int.ediv_le_ediv (by omega) (by omega))

theorem length_typed : ((typed text per start f).length : Int) = count text per start f := by
  have hnonneg : 0 ≤ count text per start f := count_nonneg hper
  have hlength : count text per start f ≤ text.length := count_le_length
  rw [typed, String.length_ofList, List.length_take, String.length_toList]
  omega

theorem typed_eq_self_iff :
    typed text per start f = text ↔ (text.length : Int) ≤ count text per start f := by
  have htake : typed text per start f = text ↔
      text.toList.take (count text per start f).toNat = text.toList := by
    rw [← String.toList_inj, typed, String.toList_ofList]
  have hnonneg : 0 ≤ count text per start f := count_nonneg hper
  rw [htake, List.take_eq_self_iff, String.length_toList]
  omega

/-- From the start on the whole text has been typed exactly if its last character is due. -/
theorem length_le_count_iff (hf : start ≤ f) :
    (text.length : Int) ≤ count text per start f ↔ start + text.length * per ≤ f := by
  rw [count, if_neg (not_lt.mpr hf), le_min_iff, Int.le_ediv_iff_mul_le (by omega)]
  constructor
  · intro h
    linarith [h.2]
  · intro h
    exact ⟨le_rfl, by linarith⟩

/-- In front of the start a text that has characters has not been typed, nor is it due. -/
theorem length_le_count_iff_of_ne (hsome : text ≠ "") :
    (text.length : Int) ≤ count text per start f ↔ start + text.length * per ≤ f := by
  by_cases hf : start ≤ f
  · exact length_le_count_iff hper hf
  · have hlength : 0 < text.length := by
      rw [← String.length_toList, List.length_pos_iff]
      exact mt String.toList_eq_nil_iff.mp hsome
    have hdue : (0 : Int) ≤ text.length * per := mul_nonneg (Int.natCast_nonneg _) (by omega)
    rw [count, if_pos (not_le.mp hf)]
    constructor <;> intro h <;> omega

theorem typed_prefix (hfg : f ≤ g) :
    (typed text per start f).toList <+: (typed text per start g).toList := by
  unfold typed
  rw [String.toList_ofList, String.toList_ofList]
  apply List.take_prefix_take_left
  have hmono : count text per start f ≤ count text per start g := count_mono hper hfg
  omega

end Count

section Documents

variable {per start f : Int} (text : String) (hper : 1 ≤ per) (hnear : |f - start| < 2 ^ 53)

include hper hnear

theorem revealed_eq : revealed (ofInt f : Document) (.text text) (ofInt per) (ofInt start) =
    .ok (count text per start f) := by
  unfold revealed count
  rw [Arith.Whole.lt_ofInt, ok_bind]
  by_cases hf : f < start
  · rw [if_pos (decide_eq_true hf), if_pos hf]
    rfl
  · have hway : 0 ≤ f - start := by omega
    have hfloor := Document.floor_div hway ((le_abs_self _).trans_lt hnear) (show 0 < per by omega)
    obtain ⟨q, hq, hfloor⟩ := bind_eq_ok_iff.mp hfloor
    have hdiv : Arith.div (ofInt (f - start) : Document) (ofInt per) = .ok q := hq
    rw [if_neg (by simpa using hf), if_neg hf, Arith.Whole.sub_ofInt, ok_bind, hdiv, ok_bind,
      hfloor, ok_bind, size_text, ok_bind]
    have hnonneg : 0 ≤ (f - start) / per := Int.ediv_nonneg hway (by omega)
    rw [pure_eq_ok, max_eq_right (le_min (Int.natCast_nonneg _) hnonneg)]

theorem shownText_eq : shownText (ofInt f : Document) (.text text) (ofInt per) (ofInt start) =
    .ok (.text (typed text per start f)) := by
  rw [shownText, revealed_eq text hper hnear]
  rfl

end Documents

end Typing

namespace TypedField

open Typing

/-- The field at a frame, told by the characters typed so far. -/
theorem exists_typedAt_eq {per start f : Int} (text : String) (hper : 1 ≤ per)
    (hnear : |f - start| < 2 ^ 53) (showCaret : Document) : ∃ field : TypedField Document,
      typedAt (ofInt f) (.text text) (ofInt start) (ofInt per) showCaret = .ok field ∧
      field.value = .text (typed text per start f) ∧ field.chars = count text per start f ∧
      (field.complete = true ↔ (text.length : Int) ≤ count text per start f) ∧
      (field.caretVisible.isTrue = true ↔
        showCaret.isTrue = true ∧ start ≤ f ∧ f ≤ start + text.length * per + 10) ∧
      (field.caretVisible.isTrue = false → field.caretOpacity = 0.0) := by
  obtain ⟨opacity, hopacity⟩ := exists_caretOpacityAt f
  have hvalue : (Document.text text).front (count text per start f).toNat =
      .ok (.text (typed text per start f)) := rfl
  -- As long as characters are missing the caret stays; they are missing only up to the finish.
  have hcaret : (start ≤ f ∧ (decide ((text.length : Int) ≤ count text per start f) = true →
      f ≤ start + text.length * per + 10)) ↔ start ≤ f ∧ f ≤ start + text.length * per + 10 := by
    apply and_congr_right
    intro hf
    rw [decide_eq_true_iff, length_le_count_iff hper hf]
    omega
  unfold typedAt
  rw [revealed_eq text hper hnear, ok_bind, size_text, ok_bind, finish_eq, ok_bind]
  dsimp only
  rw [caretShown_eq, hvalue, hopacity, decide_eq_decide.mpr hcaret]
  by_cases hshow : showCaret.isTrue = true
  · rw [if_pos hshow]
    by_cases hseen : start ≤ f ∧ f ≤ start + text.length * per + 10
    · rw [decide_eq_true hseen]
      exact ⟨_, rfl, rfl, rfl, decide_eq_true_iff, iff_of_true rfl ⟨hshow, hseen⟩,
        fun hhidden => by cases hhidden⟩
    · rw [decide_eq_false hseen]
      exact ⟨_, rfl, rfl, rfl, decide_eq_true_iff, iff_of_false Bool.false_ne_true fun h => hseen h.2,
        fun _ => rfl⟩
  · rw [if_neg hshow]
    exact ⟨_, if_neg hshow, rfl, rfl, decide_eq_true_iff, iff_of_false hshow fun h => hshow h.1,
      fun _ => rfl⟩

end TypedField

/-- A text is shown up to the characters that are due, one every few frames from the start on. What
is shown only grows, it is the whole text exactly from the finish on, and a field that is typed into
tells the same: it is complete from the finish on, its caret is to be seen from the start until ten
frames after the finish, and where the caret is not seen it has no opacity. -/
theorem Typing.typing_ends_when_told (text : String) {start per : Int} (hper : 1 ≤ per) :
    ∃ stop : Int,
      finish (.text text) (ofInt per : Document) (ofInt start) = .ok (ofInt stop) ∧
      (∀ f : Int, |f - start| < 2 ^ 53 →
        revealed (ofInt f : Document) (.text text) (ofInt per) (ofInt start) =
          .ok (count text per start f) ∧
        shownText (ofInt f : Document) (.text text) (ofInt per) (ofInt start) =
          .ok (.text (typed text per start f)) ∧
        ((typed text per start f).length : Int) = count text per start f ∧
        (text ≠ "" → (typed text per start f = text ↔ stop ≤ f)) ∧
        ∀ showCaret : Document, ∃ field : TypedField Document,
          TypedField.typedAt (ofInt f) (.text text) (ofInt start) (ofInt per) showCaret =
            .ok field ∧
          field.value = .text (typed text per start f) ∧ field.chars = count text per start f ∧
          (text ≠ "" → (field.complete = true ↔ stop ≤ f)) ∧
          (field.caretVisible.isTrue = true ↔
            showCaret.isTrue = true ∧ start ≤ f ∧ f ≤ stop + 10) ∧
          (field.caretVisible.isTrue = false → field.caretOpacity = 0.0)) ∧
      ∀ f g : Int, f ≤ g → count text per start f ≤ count text per start g ∧
        (typed text per start f).toList <+: (typed text per start g).toList := by
  refine ⟨start + text.length * per, finish_eq text, ?_, ?_⟩
  · intro f hnear
    have hdue (hsome : text ≠ "") :
        (text.length : Int) ≤ count text per start f ↔ start + text.length * per ≤ f :=
      length_le_count_iff_of_ne hper hsome
    refine ⟨revealed_eq text hper hnear, shownText_eq text hper hnear, length_typed hper, ?_, ?_⟩
    · intro hsome
      rw [typed_eq_self_iff hper, hdue hsome]
    · intro showCaret
      obtain ⟨field, hfield, hvalue, hchars, hcomplete, hcaret⟩ :=
        TypedField.exists_typedAt_eq text hper hnear showCaret
      exact ⟨field, hfield, hvalue, hchars, fun hsome => hcomplete.trans (hdue hsome), hcaret⟩
  · intro f g hfg
    exact ⟨count_mono hper hfg, typed_prefix hper hfg⟩

/-- Three characters from frame ten on, two frames each: one is shown at frame thirteen, and the
last one is there at frame sixteen. -/
theorem Typing.typing_ends_when_told_dns :
    finish (.text "dns") (ofInt 2 : Document) (ofInt 10) = .ok (ofInt 16) ∧
    shownText (ofInt 13 : Document) (.text "dns") (ofInt 2) (ofInt 10) = .ok (.text "d") ∧
    shownText (ofInt 15 : Document) (.text "dns") (ofInt 2) (ofInt 10) ≠ .ok (.text "dns") ∧
    shownText (ofInt 16 : Document) (.text "dns") (ofInt 2) (ofInt 10) = .ok (.text "dns") := by
  obtain ⟨stop, hstop, hframes, -⟩ := @typing_ends_when_told "dns" 10 2 (by decide)
  have hfinish : finish (.text "dns") (ofInt 2 : Document) (ofInt 10) = .ok (ofInt 16) := rfl
  obtain rfl : stop = 16 := by
    injection hstop.symm.trans hfinish with hint
    injection hint
  obtain ⟨-, h₁₃, -⟩ := hframes 13 (by decide)
  obtain ⟨-, h₁₅, -, hwhole₁₅, -⟩ := hframes 15 (by decide)
  obtain ⟨-, h₁₆, -, hwhole₁₆, -⟩ := hframes 16 (by decide)
  refine ⟨hfinish, h₁₃, ?_, ?_⟩
  · rw [h₁₅]
    intro h
    injection h with htext
    injection htext with hwhole
    exact absurd ((hwhole₁₅ (by decide)).mp hwhole) (by decide)
  · rw [h₁₆, (hwhole₁₆ (by decide)).mpr le_rfl]

end Showreel
