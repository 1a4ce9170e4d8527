import Mathlib.Data.List.Nodup
import Showreel.Document

/-!
# Entries of mappings

What is found under a key after a value was put under one. A value that is put under a key takes the
place of the one that was there; entries under other keys are not touched.
-/

namespace Showreel.Document

variable {β : Type} {key key' : String} {value : β}

theorem lookup_put_self (entries : List (String × β)) :
    lookup key (put key value entries) = some value := by
  induction entries with
  | nil => simp [put, lookup]
  | cons entry rest ih =>
    obtain ⟨k, v⟩ := entry
    by_cases hk : k = key
    · simp [put, lookup, hk]
    · simp [put, lookup, hk, ih]

theorem lookup_put_of_ne (hkey : key ≠ key') (entries : List (String × β)) :
    lookup key (put key' value entries) = lookup key entries := by
  induction entries with
  | nil => simp [put, lookup, hkey.symm]
  | cons entry rest ih =>
    obtain ⟨k, v⟩ := entry
    by_cases hk : k = key'
    · simp [put, lookup, hk, hkey.symm]
    · rw [put, if_neg hk, lookup, lookup, ih]

theorem mem_of_lookup {entries : List (String × β)} (h : lookup key entries = some value) :
    (key, value) ∈ entries := by
  induction entries with
  | nil => cases h
  | cons entry rest ih =>
    obtain ⟨k, v⟩ := entry
    rw [lookup] at h
    split at h
    case isTrue hk =>
      obtain rfl := Option.some.inj h
      rw [hk]
      exact List.mem_cons_self
    case isFalse => exact List.mem_cons_of_mem _ (ih h)

/-- Where keys are different every entry is found under its key. -/
theorem lookup_of_mem {entries : List (String × β)} (hkeys : (entries.map Prod.fst).Nodup)
    (h : (key, value) ∈ entries) :
    lookup key entries = some value := by
  induction entries with
  | nil => cases h
  | cons entry rest ih =>
    obtain ⟨k, v⟩ := entry
    rw [List.map_cons, List.nodup_cons] at hkeys
    rw [lookup]
    rcases List.mem_cons.mp h with heq | hrest
    · cases heq
      rw [if_pos rfl]
    · have hne : k ≠ key := by
        rintro rfl
        exact hkeys.1 (List.mem_map.mpr ⟨_, hrest, rfl⟩)
      rw [if_neg hne]
      exact ih hkeys.2 hrest

/-- Where keys are different, to be found under a key is to be an entry. -/
theorem lookup_eq_some_iff {entries : List (String × β)} (hkeys : (entries.map Prod.fst).Nodup) :
    lookup key entries = some value ↔ (key, value) ∈ entries :=
  ⟨mem_of_lookup, lookup_of_mem hkeys⟩

theorem lookup_eq_none_iff {entries : List (String × β)} :
    lookup key entries = none ↔ key ∉ entries.map Prod.fst := by
  induction entries with
  | nil => simp [lookup]
  | cons entry rest ih =>
    obtain ⟨k, v⟩ := entry
    by_cases hk : k = key
    · simp [lookup, hk]
    · simp [lookup, hk, ih, Ne.symm hk]

/-- Mappings in which the same is found under every key differ at most in the order of their
entries. -/
theorem perm_of_lookup {xs ys : List (String × β)} (hxs : (xs.map Prod.fst).Nodup)
    (hys : (ys.map Prod.fst).Nodup) (h : ∀ key, lookup key xs = lookup key ys) : xs.Perm ys := by
  rw [List.perm_ext_iff_of_nodup hxs.of_map hys.of_map]
  rintro ⟨key, value⟩
  rw [← lookup_eq_some_iff hxs, ← lookup_eq_some_iff hys, h]

/-- Mappings with the same keys in the same order, under each of which the same is found, are
equal. -/
theorem eq_of_lookup {xs ys : List (String × β)} (hkeys : xs.map Prod.fst = ys.map Prod.fst)
    (hnodup : (xs.map Prod.fst).Nodup)
    (h : ∀ key ∈ xs.map Prod.fst, lookup key xs = lookup key ys) : xs = ys := by
  induction xs generalizing ys with
  | nil => exact (List.map_eq_nil_iff.mp hkeys.symm).symm
  | cons x xs ih =>
    obtain ⟨k, v⟩ := x
    cases ys with
    | nil => cases hkeys
    | cons y ys =>
      obtain ⟨k', w⟩ := y
      rw [List.map_cons, List.nodup_cons] at hnodup
      obtain ⟨rfl, hrest⟩ := List.cons.inj hkeys
      have hvalue := h k List.mem_cons_self
      rw [lookup, lookup, if_pos rfl, if_pos rfl] at hvalue
      rw [Option.some.inj hvalue, ih hrest hnodup.2 fun key hkey => ?_]
      have hne : k ≠ key := fun heq => hnodup.1 (heq ▸ hkey)
      have hlater := h key (List.mem_cons_of_mem _ hkey)
      rwa [lookup, lookup, if_neg hne, if_neg hne] at hlater

/-! ## Many entries put one after the other -/

/-- Puts values under keys, one after the other. -/
def putAll (updates entries : List (String × β)) : List (String × β) :=
  updates.foldl (fun written update => put update.1 update.2 written) entries

theorem keys_put (entries : List (String × β)) : (put key value entries).map Prod.fst =
    entries.map Prod.fst ++ if key ∈ entries.map Prod.fst then [] else [key] := by
  induction entries with
  | nil => simp [put]
  | cons entry rest ih =>
    obtain ⟨k, v⟩ := entry
    by_cases hk : k = key
    · simp [put, hk]
    · have hmem : key ∈ ((k, v) :: rest).map Prod.fst ↔ key ∈ rest.map Prod.fst := by
        rw [List.map_cons, List.mem_cons, or_iff_right (Ne.symm hk)]
      simp only [put, hk, if_false, List.map_cons, ih, List.cons_append, ← hmem]

section PutAll

variable {updates : List (String × β)} (hkeys : (updates.map Prod.fst).Nodup)

include hkeys

/-- Under a key that was put the value is found that was put there, under another key what was
there before. -/
theorem lookup_putAll (key : String) (entries : List (String × β)) :
    lookup key (putAll updates entries) = (lookup key updates).or (lookup key entries) := by
  induction updates generalizing entries with
  | nil => rfl
  | cons update rest ih =>
    obtain ⟨k, v⟩ := update
    rw [List.map_cons, List.nodup_cons] at hkeys
    change lookup key (putAll rest (put k v entries)) = _
    rw [ih hkeys.2, lookup]
    by_cases hk : k = key
    · subst hk
      rw [lookup_eq_none_iff.mpr hkeys.1, lookup_put_self, if_pos rfl]
      rfl
    · rw [lookup_put_of_ne (Ne.symm hk), if_neg hk]

/-- New keys are added behind those that are there, in order. -/
theorem keys_putAll (entries : List (String × β)) : (putAll updates entries).map Prod.fst =
    entries.map Prod.fst ++
      (updates.map Prod.fst).filter (· ∉ entries.map Prod.fst) := by
  induction updates generalizing entries with
  | nil => simp [putAll]
  | cons update rest ih =>
    obtain ⟨k, v⟩ := update
    rw [List.map_cons, List.nodup_cons] at hkeys
    change (putAll rest (put k v entries)).map Prod.fst = _
    rw [ih hkeys.2, keys_put, List.map_cons]
    by_cases hk : k ∈ entries.map Prod.fst
    · rw [if_pos hk, List.append_nil, List.filter_cons_of_neg (by simpa using hk)]
    · have hrest : (rest.map Prod.fst).filter (· ∉ entries.map Prod.fst ++ [k]) =
          (rest.map Prod.fst).filter (· ∉ entries.map Prod.fst) := by
        refine List.filter_congr fun key hkey => ?_
        have hne : key ≠ k := fun heq => hkeys.1 (heq ▸ hkey)
        simp only [List.mem_append, List.mem_singleton, hne, or_false]
      rw [if_neg hk, hrest, List.filter_cons_of_pos (by simpa using hk), List.append_assoc,
        List.singleton_append]

end PutAll

end Showreel.Document
