import Mathlib
import Showreel.Proofs.Fallible
import Showreel.Proofs.Snapshot.Written

/-!
# Values that are the same as themselves

The program compares what was written: numbers by their size, except that what is no number equals
itself, and mappings without regard to the order of their entries. A value equals itself by this
comparison if the keys of every mapping in it are different, as those of a real mapping are.
-/

namespace Showreel

theorem Number.same_self (n : Number) : n.same n = true := by
  cases n with
  | int n =>
    have horder : order (.int n) (.int n) = some .eq := congrArg some Std.ReflCmp.compare_self
    rw [same, equal, horder]
    · rfl
    · nofun
  | double x =>
    rw [same, Float.isNaN_eq_decide_eq_nan, Bool.and_self]
    by_cases hnan : x = Float.nan
    · rw [decide_eq_true hnan, Bool.or_true]
    · rw [Float.beq_self_iff.mpr hnan, Bool.true_or]

namespace Document

theorem entries_eq_ok_iff {v : Document} {entries : List (String × Document)} :
    v.entries = .ok entries ↔ v = .mapping entries := by
  cases v with
  | mapping entries' => simp [Document.entries]
  | _ => simp [Document.entries]

/-- The keys of every mapping in the value are different. -/
def IsKeyed (v : Document) : Prop :=
  ∀ entries, Part (.mapping entries) v → (entries.map Prod.fst).Nodup

@[simp] theorem isKeyed_list_iff {items : List Document} :
    (Document.list items).IsKeyed ↔ ∀ v ∈ items, v.IsKeyed := by
  constructor
  · intro h v hv entries hpart
    exact h entries (.item hv hpart)
  · intro h entries hpart
    cases hpart with
    | item hv hpart => exact h _ hv entries hpart

@[simp] theorem isKeyed_mapping_iff {entries : List (String × Document)} :
    (Document.mapping entries).IsKeyed ↔
      (entries.map Prod.fst).Nodup ∧ ∀ entry ∈ entries, entry.2.IsKeyed := by
  constructor
  · intro h
    exact ⟨h entries (.refl _), fun entry hentry inner hpart => h inner (.entry hentry hpart)⟩
  · rintro ⟨hkeys, hvalues⟩ inner hpart
    cases hpart with
    | refl => exact hkeys
    | entry hentry hpart => exact hvalues _ hentry inner hpart

/-- A setting of a value with different keys has different keys too, if its default has. -/
theorem IsKeyed.setting {v default w : Document} {key : String} (h : v.IsKeyed)
    (hdefault : default.IsKeyed) (hsetting : v.setting key default = .ok w) : w.IsKeyed := by
  obtain ⟨entries, hentries, hw⟩ := bind_eq_ok_iff.mp hsetting
  obtain rfl := entries_eq_ok_iff.mp hentries
  cases hlookup : lookup key entries with
  | none =>
    rw [hlookup] at hw
    cases hw
    exact hdefault
  | some found =>
    rw [hlookup] at hw
    cases hw
    exact (isKeyed_mapping_iff.mp h).2 _ (mem_of_lookup hlookup)

mutual

theorem same_self (v : Document) (h : v.IsKeyed) : v.same v = true := by
  match v with
  | .null => rfl
  | .flag b => exact Number.same_self (.int (if b then 1 else 0))
  | .int n => exact Number.same_self (.int n)
  | .double x => exact Number.same_self (.double x)
  | .text s => exact beq_self_eq_true s
  | .list items =>
    rw [same, equalBy]
    exact sameItems_self items (isKeyed_list_iff.mp h)
  | .mapping entries =>
    rw [same, equalBy, beq_self_eq_true, Bool.true_and]
    obtain ⟨hkeys, hvalues⟩ := isKeyed_mapping_iff.mp h
    exact sameEntries_self entries entries hvalues fun _ hentry => lookup_of_mem hkeys hentry

theorem sameItems_self (items : List Document) (h : ∀ v ∈ items, v.IsKeyed) :
    equalItems Number.same items items = true := by
  match items with
  | [] => rfl
  | v :: rest =>
    rw [List.forall_mem_cons] at h
    have hv : v.equalBy Number.same v = true := same_self v h.1
    rw [equalItems, hv, sameItems_self rest h.2, Bool.and_self]

theorem sameEntries_self (entries whole : List (String × Document))
    (h : ∀ entry ∈ entries, entry.2.IsKeyed)
    (hwhole : ∀ entry ∈ entries, lookup entry.1 whole = some entry.2) :
    equalEntries Number.same entries whole = true := by
  match entries with
  | [] => rfl
  | (key, v) :: rest =>
    rw [List.forall_mem_cons] at h hwhole
    have hv : v.equalBy Number.same v = true := same_self v h.1
    have hrest : equalEntries Number.same rest whole = true :=
      sameEntries_self rest whole h.2 hwhole.2
    rw [equalEntries, hwhole.1, hrest, Bool.and_true]
    exact hv

end

end Document

end Showreel
