import Showreel.Proofs.Number.Order

/-!
# What is no number

A double may be no number. Then it stands in no order to anything, itself included, so that a test
for being out of a range finds nothing wrong with it. Of two numbers that are numbers one is at most
the other.
-/

namespace Showreel.Number

/-- A double that is no number. -/
def IsNan : Number → Prop
  | .int _ => False
  | .double x => x.isNaN = true

variable {a b : Number}

theorem not_isNan_int (n : Int) : ¬ (int n).IsNan := id

theorem isNan_double_iff {x : Float} : (double x).IsNan ↔ Double.parts x = .nan := by
  have h := Double.unpacks_parts x
  show x.toModel.unpack.isNaN = true ↔ _
  generalize Double.parts x = p at h
  generalize x.toModel.unpack = u at h
  cases h with
  | nan => exact iff_of_true rfl rfl
  | _ => exact iff_of_false (by simp [Float.Model.UnpackedFloat.isNaN]) (by simp)

/-- What is no number is what has no place among the numbers. -/
theorem isNan_iff : a.IsNan ↔ a.place = none := by
  cases a with
  | int n => exact iff_of_false (not_isNan_int n) (Option.some_ne_none _)
  | double x =>
    rw [isNan_double_iff, place]
    cases Double.parts x with
    | nan => exact iff_of_true rfl rfl
    | infinite negative => simp [Double.Parts.place]
    | finite negative m e => simp [Double.Parts.place]

/-- Every comparison with what is no number fails. -/
theorem unordered (h : a.IsNan ∨ b.IsNan) : a.le b = false ∧ a.lt b = false := by
  have hplaces : ∀ r s, a.place = some r → b.place ≠ some s := by
    intro r s hr hs
    rcases h with h | h
    · rw [isNan_iff.mp h] at hr
      cases hr
    · rw [isNan_iff.mp h] at hs
      cases hs
  constructor
  · rw [← Bool.not_eq_true, le_iff]
    rintro ⟨r, s, hr, hs, -⟩
    exact hplaces r s hr hs
  · rw [← Bool.not_eq_true, lt_iff]
    rintro ⟨r, s, hr, hs, -⟩
    exact hplaces r s hr hs

/-- Numbers that are numbers are in a linear order. -/
theorem ordered (ha : ¬ a.IsNan) (hb : ¬ b.IsNan) :
    (a.le b = false ↔ b.lt a = true) ∧ (a.lt b = false ↔ b.le a = true) := by
  obtain ⟨r, hr⟩ := Option.ne_none_iff_exists'.mp (mt isNan_iff.mpr ha)
  obtain ⟨s, hs⟩ := Option.ne_none_iff_exists'.mp (mt isNan_iff.mpr hb)
  rw [← Bool.not_eq_true, ← Bool.not_eq_true, le_iff, lt_iff, lt_iff, le_iff]
  simp [hr, hs]

/-- A number is not found to be at most another one if it is above it or one of them is no
number. -/
theorem le_eq_false_iff : a.le b = false ↔ a.IsNan ∨ b.IsNan ∨ b.lt a = true := by
  by_cases ha : a.IsNan
  · exact iff_of_true (unordered (.inl ha)).1 (.inl ha)
  by_cases hb : b.IsNan
  · exact iff_of_true (unordered (.inr hb)).1 (.inr (.inl hb))
  simp [ha, hb, (ordered ha hb).1]

/-- A number is not found to be below another one if it is at least that or one of them is no
number. -/
theorem lt_eq_false_iff : a.lt b = false ↔ a.IsNan ∨ b.IsNan ∨ b.le a = true := by
  by_cases ha : a.IsNan
  · exact iff_of_true (unordered (.inl ha)).2 (.inl ha)
  by_cases hb : b.IsNan
  · exact iff_of_true (unordered (.inr hb)).2 (.inr (.inl hb))
  simp [ha, hb, (ordered ha hb).2]

theorem not_le_of_lt (h : a.lt b = true) : b.le a = false :=
  le_eq_false_iff.mpr (.inr (.inr h))

/-- What can be told to be at most something is a number, and so is that. -/
theorem not_isNan_of_le (h : a.le b = true) : ¬ a.IsNan ∧ ¬ b.IsNan := by
  rw [← not_or]
  intro hnan
  rw [(unordered hnan).1] at h
  cases h

theorem le_int_eq_false_iff {n : Int} : a.le (int n) = false ↔ a.IsNan ∨ (int n).lt a = true := by
  rw [le_eq_false_iff, or_iff_right (not_isNan_int n)]

theorem lt_int_eq_false_iff {n : Int} : a.lt (int n) = false ↔ a.IsNan ∨ (int n).le a = true := by
  rw [lt_eq_false_iff, or_iff_right (not_isNan_int n)]

/-- The least of two numbers is the first one unless the second one is found below it. So a first
number that is none is below nothing, and a second one that is none is passed over. -/
theorem least_lt_eq_false_iff {d : Number} : (if b.lt a then b else a).lt d = false ↔
    a.IsNan ∨ d.IsNan ∨ d.le a = true ∧ (b.IsNan ∨ d.le b = true) := by
  by_cases hlt : b.lt a = true
  · -- Only a number is below anything, and only below a number.
    have hboth : ¬ b.IsNan ∧ ¬ a.IsNan := not_isNan_of_le (le_of_lt hlt)
    have hless : d.le b = true → d.le a = true := fun h => le_trans h (le_of_lt hlt)
    rw [if_pos hlt, lt_eq_false_iff]
    tauto
  · have hgreater : d.le a = true → a.IsNan ∨ b.IsNan ∨ d.le b = true := by
      intro h
      rcases lt_eq_false_iff.mp (Bool.not_eq_true _ ▸ hlt) with hb | ha | hab
      · exact .inr (.inl hb)
      · exact .inl ha
      · exact .inr (.inr (le_trans h hab))
    rw [if_neg hlt, lt_eq_false_iff]
    tauto

end Showreel.Number
