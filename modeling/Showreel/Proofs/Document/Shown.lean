import Mathlib
import Showreel.Document
import Showreel.Proofs.Fallible

/-!
# Values in messages

A message shows values as text. Every value can be shown unless an integer in it has too many
digits, at whatever depth it stands; nothing else can go wrong.
-/

namespace Showreel

theorem Text.lt_unwritable {n : Nat} (h : n < 10 ^ 20) : n < Text.unwritable := by
  have hlimit : 20 ≤ Text.digitLimit := by decide
  have hpow := Nat.pow_le_pow_right (show 0 < 10 by decide) hlimit
  unfold Text.unwritable
  rw [Nat.pow_eq]
  omega

namespace Document

section Limits

variable {β γ : Type} {m n : Nat}

/-- A computation that fails exactly if an integer of some magnitude has too many digits. -/
structure WritesUpTo (n : Nat) (x : Except Fault β) : Prop where
  exists_ok : n < Text.unwritable → ∃ b, x = .ok b
  eq_badValue : Text.unwritable ≤ n → x = .error .badValue

theorem WritesUpTo.exists_iff {x : Except Fault β} (h : WritesUpTo n x) :
    (∃ b, x = .ok b) ↔ n < Text.unwritable := by
  refine ⟨fun hok => ?_, h.exists_ok⟩
  by_contra hn
  have hfault := h.eq_badValue (not_lt.mp hn)
  obtain ⟨b, hb⟩ := hok
  rw [hb] at hfault
  cases hfault

theorem WritesUpTo.fault_eq {x : Except Fault β} (h : WritesUpTo n x) {fault : Fault}
    (hfault : x = .error fault) : fault = .badValue := by
  rcases lt_or_ge n Text.unwritable with hn | hn
  · obtain ⟨b, hb⟩ := h.exists_ok hn
    rw [hb] at hfault
    cases hfault
  · rw [h.eq_badValue hn] at hfault
    cases hfault
    rfl

theorem writesUpTo_zero (b : β) : WritesUpTo 0 (.ok b : Except Fault β) := by
  have hzero : 0 < Text.unwritable := Text.lt_unwritable (by decide)
  exact ⟨fun _ => ⟨b, rfl⟩, fun h => absurd h (not_le.mpr hzero)⟩

/-- Of two steps the one with the larger integers decides. -/
theorem WritesUpTo.bind {x : Except Fault β} {f : β → Except Fault γ} (hx : WritesUpTo m x)
    (hf : ∀ b, WritesUpTo n (f b)) : WritesUpTo (max m n) (x >>= f) := by
  constructor
  · intro h
    obtain ⟨b, rfl⟩ := hx.exists_ok (by omega)
    rw [ok_bind]
    exact (hf b).exists_ok (by omega)
  · intro h
    rcases lt_or_ge m Text.unwritable with hm | hm
    · obtain ⟨b, rfl⟩ := hx.exists_ok hm
      rw [ok_bind]
      exact (hf b).eq_badValue (by omega)
    · rw [hx.eq_badValue hm, error_bind]

theorem WritesUpTo.map {x : Except Fault β} (hx : WritesUpTo n x) (g : β → γ) :
    WritesUpTo n (x >>= fun b => .ok (g b)) := by
  have h := hx.bind fun b => writesUpTo_zero (g b)
  rwa [max_eq_left (Nat.zero_le n)] at h

end Limits

theorem writesUpTo_integerText (n : Int) : WritesUpTo n.natAbs (integerText n) := by
  unfold integerText Text.ofInteger?
  constructor
  · intro h
    rw [if_pos h]
    exact ⟨_, rfl⟩
  · intro h
    rw [if_neg (not_lt.mpr h)]

mutual

/-- The integer of the greatest magnitude in a value decides whether it can be shown. -/
theorem writesUpTo_quoted (v : Document) : WritesUpTo v.magnitude v.quoted := by
  match v with
  | .null => exact writesUpTo_zero _
  | .flag b => exact writesUpTo_zero _
  | .int n => exact writesUpTo_integerText n
  | .double x => exact writesUpTo_zero _
  | .text s => exact writesUpTo_zero _
  | .list items =>
    rw [magnitude, quoted]
    exact (writesUpTo_quotedItems items).map _
  | .mapping es =>
    rw [magnitude, quoted]
    exact (writesUpTo_quotedEntries es).map _

theorem writesUpTo_quotedItems (items : List Document) :
    WritesUpTo (magnitudeOfItems items) (quotedItems items) := by
  match items with
  | [] => exact writesUpTo_zero _
  | v :: rest =>
    rw [magnitudeOfItems, quotedItems]
    exact (writesUpTo_quoted v).bind fun _ => (writesUpTo_quotedItems rest).map _

theorem writesUpTo_quotedEntries (es : List (String × Document)) :
    WritesUpTo (magnitudeOfEntries es) (quotedEntries es) := by
  match es with
  | [] => exact writesUpTo_zero _
  | (k, v) :: rest =>
    rw [magnitudeOfEntries, quotedEntries]
    exact (writesUpTo_quoted v).bind fun _ => (writesUpTo_quotedEntries rest).map _

end

theorem writesUpTo_shown (v : Document) : WritesUpTo v.magnitude v.shown := by
  cases v with
  | text s => exact writesUpTo_zero s
  | null => exact writesUpTo_quoted .null
  | flag b => exact writesUpTo_quoted (.flag b)
  | int n => exact writesUpTo_quoted (.int n)
  | double x => exact writesUpTo_quoted (.double x)
  | list items => exact writesUpTo_quoted (.list items)
  | mapping es => exact writesUpTo_quoted (.mapping es)

/-! ## Integers by themselves -/

theorem shown_int (n : Int) : (int n).shown = integerText n := by
  rw [shown, quoted]
  nofun

theorem shown_int_eq_ok {n : Int} (h : n.natAbs < Text.unwritable) :
    (int n).shown = .ok (toString n) := by
  have htext : Text.ofInteger? n = some (toString n) := by
    unfold Text.ofInteger?
    exact if_pos h
  rw [shown_int]
  unfold integerText
  rw [htext]

theorem exists_shown_int_iff {n : Int} :
    (∃ s, (int n).shown = .ok s) ↔ n.natAbs < Text.unwritable :=
  (writesUpTo_shown (.int n)).exists_iff

theorem exists_shown_int {n : Int} (h : n.natAbs < 10 ^ 20) : ∃ s, (int n).shown = .ok s :=
  exists_shown_int_iff.mpr (Text.lt_unwritable h)

theorem shown_int_eq_error {n : Int} (h : ¬ n.natAbs < Text.unwritable) :
    (int n).shown = .error .badValue :=
  (writesUpTo_shown (.int n)).eq_badValue (not_lt.mp h)

end Document

end Showreel
