import Showreel.Proofs.Arith.Measured
import Showreel.Proofs.Arith.Whole
import Showreel.Proofs.Document.Entries
import Showreel.Proofs.Document.Shown
import Showreel.Proofs.Spring.Config

/-!
# Presets

A configuration completes springs: those that it names for the first time from a common spring, the
others from the built-in ones. All completed springs must be in range. Then the presets are the
built-in ones with the completed ones in their places, so neither the order of the configuration
matters nor whether what was loaded is loaded again.
-/

namespace Showreel

namespace Document

/-- A number that is zero or less. -/
def AtMostZero (v : Document) : Prop := ∃ x, v.number? = some x ∧ x.le (.int 0)

/-- A number that is less than zero. -/
def BelowZero (v : Document) : Prop := ∃ x, v.number? = some x ∧ x.lt (.int 0)

variable {v : Document} {x : Number}

theorem atMostZero_iff (h : v.number? = some x) : v.AtMostZero ↔ x.le (.int 0) := by
  simp [AtMostZero, h]

theorem belowZero_iff (h : v.number? = some x) : v.BelowZero ↔ x.lt (.int 0) := by
  simp [BelowZero, h]

theorem le_zero_eq_true (h : v.AtMostZero) : Arith.le v (Arith.ofInt 0) = .ok true := by
  obtain ⟨x, hx, hle⟩ := h
  rw [le_numbers (w := Arith.ofInt 0) hx rfl, hle]

theorem le_zero_eq_false (hnumber : v.number?.isSome) (h : ¬ v.AtMostZero) :
    Arith.le v (Arith.ofInt 0) = .ok false := by
  obtain ⟨x, hx⟩ := Option.isSome_iff_exists.mp hnumber
  rw [atMostZero_iff hx, Bool.not_eq_true] at h
  rw [le_numbers (w := Arith.ofInt 0) hx rfl, h]

theorem lt_zero_eq_true (h : v.BelowZero) : Arith.lt v (Arith.ofInt 0) = .ok true := by
  obtain ⟨x, hx, hlt⟩ := h
  rw [lt_numbers (w := Arith.ofInt 0) hx rfl, hlt]

theorem lt_zero_eq_false (hnumber : v.number?.isSome) (h : ¬ v.BelowZero) :
    Arith.lt v (Arith.ofInt 0) = .ok false := by
  obtain ⟨x, hx⟩ := Option.isSome_iff_exists.mp hnumber
  rw [belowZero_iff hx, Bool.not_eq_true] at h
  rw [lt_numbers (w := Arith.ofInt 0) hx rfl, h]

end Document

namespace Spring

open Document (lookup putAll AtMostZero BelowZero)

/-! ## Springs in range -/

namespace Config

/-- Mass, damping and stiffness are numbers. -/
structure IsNumeric (c : Config Document) : Prop where
  mass : c.mass.number?.isSome
  damping : c.damping.number?.isSome
  stiffness : c.stiffness.number?.isSome

/-- No spring may have these parameters. -/
def OutOfRange (c : Config Document) : Prop :=
  c.mass.AtMostZero ∨ c.stiffness.AtMostZero ∨ c.damping.BelowZero

/-- The first parameter that no spring may have, and why. -/
inductive Faulty (c : Config Document) : Document → (String → Rejection) → Prop
  | mass : c.mass.AtMostZero → Faulty c c.mass .massNotPositive
  | stiffness : ¬ c.mass.AtMostZero → c.stiffness.AtMostZero →
      Faulty c c.stiffness .stiffnessNotPositive
  | damping : ¬ c.mass.AtMostZero → ¬ c.stiffness.AtMostZero → c.damping.BelowZero →
      Faulty c c.damping .dampingNegative

/-- The configuration itself, if a spring may have its parameters. -/
def checked (c : Config Document) : Except Fault (Config Document) :=
  build c.mass c.damping c.stiffness c.overshootClamping

variable {c c' : Config Document}

theorem outOfRange_iff : c.OutOfRange ↔ ∃ v reason, c.Faulty v reason := by
  constructor
  · intro h
    by_cases hmass : c.mass.AtMostZero
    · exact ⟨_, _, .mass hmass⟩
    by_cases hstiffness : c.stiffness.AtMostZero
    · exact ⟨_, _, .stiffness hmass hstiffness⟩
    · exact ⟨_, _, .damping hmass hstiffness ((h.resolve_left hmass).resolve_left hstiffness)⟩
  · rintro ⟨v, reason, h⟩
    cases h with
    | mass h => exact .inl h
    | stiffness _ h => exact .inr (.inl h)
    | damping _ _ h => exact .inr (.inr h)

theorem checked_of_not_outOfRange (hc : c.IsNumeric) (h : ¬ c.OutOfRange) :
    c.checked = .ok c := by
  simp only [OutOfRange, not_or] at h
  exact build_eq_ok_iff_checks.mpr ⟨rfl, Document.le_zero_eq_false hc.mass h.1,
    Document.le_zero_eq_false hc.stiffness h.2.1, Document.lt_zero_eq_false hc.damping h.2.2⟩

/-- A spring out of range is rejected for its first parameter that is, if that can be told. -/
theorem checked_of_faulty (hc : c.IsNumeric) {v : Document} {reason : String → Rejection}
    (h : c.Faulty v reason) : c.checked = v.shown >>= fun got => reject (reason got) := by
  unfold checked build
  cases h with
  | mass h =>
    rw [Document.le_zero_eq_true h]
    rfl
  | stiffness hmass h =>
    rw [Document.le_zero_eq_false hc.mass hmass, Document.le_zero_eq_true h]
    rfl
  | damping hmass hstiffness h =>
    rw [Document.le_zero_eq_false hc.mass hmass, Document.le_zero_eq_false hc.stiffness hstiffness,
      Document.lt_zero_eq_true h]
    rfl

theorem checked_eq_ok_iff (hc : c.IsNumeric) : c.checked = .ok c' ↔ ¬ c.OutOfRange ∧ c' = c := by
  constructor
  · intro h
    by_cases hout : c.OutOfRange
    · obtain ⟨v, reason, hfaulty⟩ := outOfRange_iff.mp hout
      rw [checked_of_faulty hc hfaulty] at h
      exact absurd h (bind_ne_ok fun _ => reject_ne_ok)
    · rw [checked_of_not_outOfRange hc hout] at h
      exact ⟨hout, (Except.ok.inj h).symm⟩
  · rintro ⟨hout, rfl⟩
    exact checked_of_not_outOfRange hc hout

/-- What keeps a spring out of range from being checked: its first parameter that is, unless its
digits are too many to tell it. -/
inductive Refuses (c : Config Document) : Fault → Prop
  | told {v : Document} {reason : String → Rejection} {got : String} :
      c.Faulty v reason → v.shown = .ok got → Refuses c (.rejected (reason got))
  | untold {v : Document} {reason : String → Rejection} :
      c.Faulty v reason → Text.unwritable ≤ v.magnitude → Refuses c .badValue

/-- The first parameter out of range, if there is one, can be told: it has not too many digits. -/
def IsTellable (c : Config Document) : Prop :=
  ∀ v reason, c.Faulty v reason → v.magnitude < Text.unwritable

theorem checked_eq_error_iff (hc : c.IsNumeric) {fault : Fault} :
    c.checked = .error fault ↔ c.Refuses fault := by
  constructor
  · intro h
    have hout : c.OutOfRange := by
      by_contra hout
      rw [checked_of_not_outOfRange hc hout] at h
      cases h
    obtain ⟨v, reason, hfaulty⟩ := outOfRange_iff.mp hout
    rw [checked_of_faulty hc hfaulty] at h
    rcases lt_or_ge v.magnitude Text.unwritable with hmagnitude | hmagnitude
    · obtain ⟨got, hgot⟩ := (Document.writesUpTo_shown v).exists_ok hmagnitude
      rw [hgot, ok_bind] at h
      cases h
      exact .told hfaulty hgot
    · rw [(Document.writesUpTo_shown v).eq_badValue hmagnitude] at h
      cases h
      exact .untold hfaulty hmagnitude
  · intro h
    cases h with
    | told hfaulty hgot =>
      rw [checked_of_faulty hc hfaulty, hgot]
      rfl
    | @untold v reason hfaulty hmagnitude =>
      rw [checked_of_faulty hc hfaulty, (Document.writesUpTo_shown v).eq_badValue hmagnitude]
      rfl

/-- Nothing is changed by a check. -/
theorem eq_of_checked (h : c.checked = .ok c') : c' = c := (build_eq_ok_iff_checks.mp h).1

/-! ## Completion -/

/-- Parameters completed from a configuration. -/
def completed (params : List (String × Document)) (base : Config Document) : Config Document where
  mass := (lookup "mass" params).getD base.mass
  damping := (lookup "damping" params).getD base.damping
  stiffness := (lookup "stiffness" params).getD base.stiffness
  overshootClamping := (lookup "overshoot_clamping" params).getD base.overshootClamping

theorem ofSettings_mapping (params : List (String × Document)) (base : Config Document) :
    ofSettings (.mapping params) base = (completed params base).checked := rfl

/-- Parameters that list all of a configuration. -/
structure Lists (params : List (String × Document)) (c : Config Document) : Prop where
  mass : lookup "mass" params = some c.mass
  damping : lookup "damping" params = some c.damping
  stiffness : lookup "stiffness" params = some c.stiffness
  overshootClamping : lookup "overshoot_clamping" params = some c.overshootClamping

/-- All parameters of a configuration. -/
def listing (c : Config Document) : List (String × Document) :=
  [("mass", c.mass), ("damping", c.damping), ("stiffness", c.stiffness),
    ("overshoot_clamping", c.overshootClamping)]

theorem lists_listing (c : Config Document) : Lists c.listing c := ⟨rfl, rfl, rfl, rfl⟩

/-- Where all is listed, nothing is taken from elsewhere. -/
theorem Lists.completed_eq {params : List (String × Document)} (h : Lists params c)
    (base : Config Document) : completed params base = c := by
  rw [completed, h.mass, h.damping, h.stiffness, h.overshootClamping]
  rfl

end Config

namespace Presets

/-! ## Overrides -/

/-- Names with the parameters that are given under them. -/
abbrev Overrides := List (String × List (String × Document))

/-- A configuration gives overrides under a key of its own, or gives none. -/
inductive Gives : Document → Overrides → Prop
  | missing {entries : List (String × Document)} :
      lookup "springs" entries = none → Gives (.mapping entries) []
  | null {entries : List (String × Document)} :
      lookup "springs" entries = some .null → Gives (.mapping entries) []
  | given {entries : List (String × Document)} {overrides : Overrides} :
      lookup "springs" entries = some (.mapping (overrides.map fun o => (o.1, .mapping o.2))) →
      Gives (.mapping entries) overrides

/-- Names are given once, and the parameters given are numbers. -/
structure Proper (overrides : Overrides) : Prop where
  names : (overrides.map Prod.fst).Nodup
  numbers : ∀ o ∈ overrides, ∀ key ∈ ["mass", "damping", "stiffness"], ∀ v,
    lookup key o.2 = some v → v.number?.isSome

/-- The spring of an override: what is not given comes from the built-in spring of the name, or else
from the common spring. -/
def completion (o : String × List (String × Document)) : Config Document :=
  .completed o.2 ((builtin.find? o.1).getD .default)

/-- The springs of overrides under their names. -/
def completions (overrides : Overrides) : Presets := overrides.map fun o => (o.1, completion o)

/-- What presets are that a configuration with overrides makes. -/
structure Merges (overrides : Overrides) (presets : Presets) : Prop where
  /-- The built-in names, and behind them the new ones in order. -/
  names : presets.map Prod.fst = builtin.map Prod.fst ++
    (overrides.map Prod.fst).filter (· ∉ builtin.map Prod.fst)
  overridden : ∀ o ∈ overrides, presets.find? o.1 = some (completion o)
  kept : ∀ name, name ∉ overrides.map Prod.fst → presets.find? name = builtin.find? name

variable {overrides : Overrides} {presets : Presets} {configuration : Document}

theorem keys_completions : (completions overrides).map Prod.fst = overrides.map Prod.fst := by
  rw [completions, List.map_map]
  rfl

/-- Overrides are put over presets that have the built-in springs under their names. -/
theorem foldlM_override (hnames : (overrides.map Prod.fst).Nodup)
    (hbase : ∀ o ∈ overrides, presets.find? o.1 = builtin.find? o.1) :
    (overrides.map fun o => (o.1, Document.mapping o.2)).foldlM override presets =
      overrides.mapM (fun o => (completion o).checked) >>= fun _ =>
        .ok (putAll (completions overrides) presets) := by
  induction overrides generalizing presets with
  | nil => rfl
  | cons o rest ih =>
    rw [List.map_cons, List.nodup_cons] at hnames
    rw [List.forall_mem_cons] at hbase
    have hoverride : presets.override (o.1, .mapping o.2) = (completion o).checked >>= fun c =>
        .ok (Document.put o.1 c presets) := by
      rw [override, hbase.1, Config.ofSettings_mapping]
      rfl
    rw [List.map_cons, List.foldlM_cons, hoverride, List.mapM_cons]
    cases hchecked : (completion o).checked with
    | error fault => rfl
    | ok c =>
      obtain rfl := Config.eq_of_checked hchecked
      have hrest : ∀ o' ∈ rest, find? (Document.put o.1 (completion o) presets) o'.1 =
          builtin.find? o'.1 := by
        intro o' ho'
        have hne : o'.1 ≠ o.1 := fun heq => hnames.1 (heq ▸ List.mem_map_of_mem ho')
        rw [find?, Document.lookup_put_of_ne hne]
        exact hbase.2 o' ho'
      rw [ok_bind, ok_bind, ok_bind, ih hnames.2 hrest]
      cases rest.mapM fun o => (completion o).checked <;> rfl

theorem load_eq (hgives : Gives configuration overrides) (hnames : (overrides.map Prod.fst).Nodup) :
    load configuration = overrides.mapM (fun o => (completion o).checked) >>= fun _ =>
      .ok (putAll (completions overrides) builtin) := by
  have hsetting (entries : List (String × Document)) :
      (Document.mapping entries).setting "springs" .null =
        .ok ((lookup "springs" entries).getD .null) := rfl
  cases hgives with
  | @missing entries h =>
    rw [load, hsetting, h]
    rfl
  | @null entries h =>
    rw [load, hsetting, h]
    rfl
  | @given entries _ h =>
    rw [load, hsetting, h, ok_bind, ← foldlM_override hnames fun _ _ => rfl]
    cases overrides with
    | nil => rfl
    | cons o rest => rfl

/-! ## Built-in springs -/

theorem builtin_in_range : ∀ entry ∈ builtin, entry.2.IsNumeric ∧ ¬ entry.2.OutOfRange := by
  have hints {m d k : Int} (hm : (Number.int m).le (.int 0) = false)
      (hd : (Number.int d).lt (.int 0) = false) (hk : (Number.int k).le (.int 0) = false) :
      Config.IsNumeric ⟨.int m, .int d, .int k, .flag false⟩ ∧
        ¬ Config.OutOfRange ⟨.int m, .int d, .int k, .flag false⟩ := by
    refine ⟨⟨rfl, rfl, rfl⟩, ?_⟩
    rw [Config.OutOfRange, Document.atMostZero_iff (x := .int m) rfl,
      Document.atMostZero_iff (x := .int k) rfl, Document.belowZero_iff (x := .int d) rfl]
    simp [hm, hd, hk]
  simp only [builtin, List.forall_mem_cons, List.not_mem_nil, false_imp_iff, implies_true, and_true]
  exact ⟨hints rfl rfl rfl, hints rfl rfl rfl, hints rfl rfl rfl, hints rfl rfl rfl⟩

theorem nodup_builtin : (builtin.map Prod.fst).Nodup := by decide

theorem of_find?_builtin {name : String} {c : Config Document} (h : builtin.find? name = some c) :
    c.IsNumeric ∧ ¬ c.OutOfRange :=
  builtin_in_range _ (Document.mem_of_lookup h)

theorem isNumeric_completion (h : Proper overrides) {o : String × List (String × Document)}
    (ho : o ∈ overrides) : (completion o).IsNumeric := by
  have hbase : ((builtin.find? o.1).getD .default).IsNumeric := by
    cases hfind : builtin.find? o.1 with
    | none => exact ⟨rfl, rfl, rfl⟩
    | some c => exact (of_find?_builtin hfind).1
  have hparameter : ∀ key ∈ ["mass", "damping", "stiffness"], ∀ default : Document,
      default.number?.isSome → ((lookup key o.2).getD default).number?.isSome := by
    intro key hkey default hdefault
    cases hlookup : lookup key o.2 with
    | none => exact hdefault
    | some v => exact h.numbers o ho key hkey v hlookup
  exact ⟨hparameter _ (by decide) _ hbase.mass, hparameter _ (by decide) _ hbase.damping,
    hparameter _ (by decide) _ hbase.stiffness⟩

/-! ## Loading -/

theorem exists_mapM_checked_iff (h : ∀ o ∈ overrides, (completion o).IsNumeric) :
    (∃ cs, overrides.mapM (fun o => (completion o).checked) = .ok cs) ↔
      ∀ o ∈ overrides, ¬ (completion o).OutOfRange := by
  rw [exists_mapM_eq_ok_iff]
  refine forall₂_congr fun o ho => ?_
  simp [Config.checked_eq_ok_iff (h o ho)]

section Loading

variable (hgives : Gives configuration overrides) (h : Proper overrides)

include hgives h

theorem load_eq_ok_iff : load configuration = .ok presets ↔
    (∀ o ∈ overrides, ¬ (completion o).OutOfRange) ∧
      presets = putAll (completions overrides) builtin := by
  rw [load_eq hgives h.names, ← exists_mapM_checked_iff fun o => isNumeric_completion h,
    bind_eq_ok_iff]
  constructor
  · rintro ⟨cs, hcs, heq⟩
    exact ⟨⟨cs, hcs⟩, (Except.ok.inj heq).symm⟩
  · rintro ⟨⟨cs, hcs⟩, rfl⟩
    exact ⟨cs, hcs, rfl⟩

/-- Loading fails at the first override out of range. -/
theorem load_eq_error_iff {fault : Fault} : load configuration = .error fault ↔
    ∃ front o back, overrides = front ++ o :: back ∧
      (∀ o' ∈ front, ¬ (completion o').OutOfRange) ∧ (completion o).Refuses fault := by
  have hmapM : load configuration = .error fault ↔
      overrides.mapM (fun o => (completion o).checked) = .error fault := by
    rw [load_eq hgives h.names]
    cases overrides.mapM fun o => (completion o).checked <;> simp
  have hfront {front back : Overrides} {o : String × List (String × Document)}
      (hsplit : overrides = front ++ o :: back) : (completion o).IsNumeric ∧
        ∀ o' ∈ front, (completion o').IsNumeric := by
    refine ⟨isNumeric_completion h ?_, fun o' ho' => isNumeric_completion h ?_⟩
    · rw [hsplit]
      exact List.mem_append_right _ List.mem_cons_self
    · rw [hsplit]
      exact List.mem_append_left _ ho'
  rw [hmapM, mapM_eq_error_iff]
  constructor
  · rintro ⟨front, o, back, cs, hsplit, hcs, hfault⟩
    obtain ⟨ho, hfronts⟩ := hfront hsplit
    exact ⟨front, o, back, hsplit, (exists_mapM_checked_iff hfronts).mp ⟨cs, hcs⟩,
      (Config.checked_eq_error_iff ho).mp hfault⟩
  · rintro ⟨front, o, back, hsplit, hrange, hrefuses⟩
    obtain ⟨ho, hfronts⟩ := hfront hsplit
    obtain ⟨cs, hcs⟩ := (exists_mapM_checked_iff hfronts).mpr hrange
    exact ⟨front, o, back, cs, hsplit, hcs, (Config.checked_eq_error_iff ho).mpr hrefuses⟩

/-- Where all that is out of range can be told, it is rejected. -/
theorem rejected_load_iff (htold : ∀ o ∈ overrides, (completion o).IsTellable) :
    Rejected (load configuration) ↔ ∃ o ∈ overrides, (completion o).OutOfRange := by
  constructor
  · rintro ⟨cause, hfault⟩
    obtain ⟨front, o, back, rfl, -, hrefuses⟩ := (load_eq_error_iff hgives h).mp hfault
    refine ⟨o, List.mem_append_right _ List.mem_cons_self, Config.outOfRange_iff.mpr ?_⟩
    cases hrefuses with
    | told hfaulty _ => exact ⟨_, _, hfaulty⟩
  · rintro ⟨o, ho, hout⟩
    cases hload : load configuration with
    | ok presets => exact absurd hout (((load_eq_ok_iff hgives h).mp hload).1 o ho)
    | error fault =>
      obtain ⟨front, o, back, rfl, -, hrefuses⟩ := (load_eq_error_iff hgives h).mp hload
      cases hrefuses with
      | told _ _ => exact rejected_reject _
      | untold hfaulty hmagnitude =>
        have hmember := htold o (List.mem_append_right _ List.mem_cons_self) _ _ hfaulty
        exact absurd hmember (not_lt.mpr hmagnitude)

/-- Loaded presets are the built-in ones with the completed springs in their places. -/
theorem merges_of_load (hload : load configuration = .ok presets) : Merges overrides presets := by
  obtain ⟨-, rfl⟩ := (load_eq_ok_iff hgives h).mp hload
  have hnames : ((completions overrides).map Prod.fst).Nodup := keys_completions ▸ h.names
  refine ⟨?_, fun o ho => ?_, fun name hname => ?_⟩
  · rw [Document.keys_putAll hnames, keys_completions]
  · have hcompletion : (o.1, completion o) ∈ completions overrides := List.mem_map_of_mem ho
    rw [find?, Document.lookup_putAll hnames, Document.lookup_of_mem hnames hcompletion]
    rfl
  · rw [← keys_completions, ← Document.lookup_eq_none_iff] at hname
    rw [find?, Document.lookup_putAll hnames, hname]
    rfl

theorem nodup_of_load (hload : load configuration = .ok presets) :
    (presets.map Prod.fst).Nodup := by
  rw [(merges_of_load hgives h hload).names, List.nodup_append]
  refine ⟨nodup_builtin, h.names.filter _, fun name hname name' hname' => ?_⟩
  rintro rfl
  simpa [hname] using (List.mem_filter.mp hname').2

/-- Every loaded spring is in range. -/
theorem in_range_of_load (hload : load configuration = .ok presets) {name : String}
    {c : Config Document} (hc : presets.find? name = some c) : c.IsNumeric ∧ ¬ c.OutOfRange := by
  have hmerges := merges_of_load hgives h hload
  by_cases hname : name ∈ overrides.map Prod.fst
  · obtain ⟨o, ho, rfl⟩ := List.mem_map.mp hname
    obtain rfl := Option.some.inj ((hmerges.overridden o ho).symm.trans hc)
    exact ⟨isNumeric_completion h ho, ((load_eq_ok_iff hgives h).mp hload).1 o ho⟩
  · rw [hmerges.kept name hname] at hc
    exact of_find?_builtin hc

end Loading

/-! ## Loading again -/

/-- Overrides that list all parameters of all presets, in any order. -/
structure Restates (presets : Presets) (overrides : Overrides) : Prop where
  names : (overrides.map Prod.fst).Perm (presets.map Prod.fst)
  parameters : ∀ o ∈ overrides, ∃ c, presets.find? o.1 = some c ∧ Config.Lists o.2 c

/-- Presets listed one after the other, with all their parameters. -/
def restated (presets : Presets) : Overrides :=
  presets.map fun entry => (entry.1, entry.2.listing)

theorem restates_restated (hnodup : (presets.map Prod.fst).Nodup) :
    Restates presets (restated presets) where
  names := by
    rw [restated, List.map_map]
    exact .rfl
  parameters o ho := by
    obtain ⟨entry, hentry, rfl⟩ := List.mem_map.mp ho
    exact ⟨entry.2, Document.lookup_of_mem hnodup hentry, entry.2.lists_listing⟩

theorem completion_eq_of_lists {o : String × List (String × Document)} {c : Config Document}
    (h : Config.Lists o.2 c) : completion o = c :=
  h.completed_eq _

theorem Restates.proper (hrestates : Restates presets overrides)
    (hnodup : (presets.map Prod.fst).Nodup)
    (hnumeric : ∀ name c, presets.find? name = some c → c.IsNumeric) : Proper overrides where
  names := hrestates.names.nodup_iff.mpr hnodup
  numbers o ho key hkey v hv := by
    obtain ⟨c, hc, hlists⟩ := hrestates.parameters o ho
    obtain ⟨hmass, hdamping, hstiffness⟩ := hnumeric o.1 c hc
    simp only [List.mem_cons, List.not_mem_nil, or_false] at hkey
    rcases hkey with rfl | rfl | rfl
    · obtain rfl := Option.some.inj (hlists.mass.symm.trans hv)
      exact hmass
    · obtain rfl := Option.some.inj (hlists.damping.symm.trans hv)
      exact hdamping
    · obtain rfl := Option.some.inj (hlists.stiffness.symm.trans hv)
      exact hstiffness

/-- Presets that overrides restate have under each name what the overrides make of it. -/
theorem Restates.find?_eq (hrestates : Restates presets overrides)
    (hbuiltin : ∀ name ∈ builtin.map Prod.fst, name ∈ presets.map Prod.fst) {presets' : Presets}
    (hmerges : Merges overrides presets') (name : String) :
    presets'.find? name = presets.find? name := by
  by_cases hname : name ∈ overrides.map Prod.fst
  · obtain ⟨o, ho, rfl⟩ := List.mem_map.mp hname
    obtain ⟨c, hc, hlists⟩ := hrestates.parameters o ho
    rw [hmerges.overridden o ho, hc, completion_eq_of_lists hlists]
  · have hmissing : name ∉ presets.map Prod.fst := mt hrestates.names.mem_iff.mpr hname
    rw [hmerges.kept name hname, find?, find?, Document.lookup_eq_none_iff.mpr hmissing,
      Document.lookup_eq_none_iff.mpr (mt (hbuiltin name) hmissing)]

/-- What overrides in another order make is the same under each name. -/
theorem find?_eq_of_perm {overrides' : Overrides} {presets' : Presets}
    (hperm : overrides'.Perm overrides) (hmerges : Merges overrides presets)
    (hmerges' : Merges overrides' presets') (name : String) :
    presets'.find? name = presets.find? name := by
  by_cases hname : name ∈ overrides'.map Prod.fst
  · obtain ⟨o, ho, rfl⟩ := List.mem_map.mp hname
    rw [hmerges'.overridden o ho, hmerges.overridden o (hperm.mem_iff.mp ho)]
  · rw [hmerges'.kept name hname, hmerges.kept name (mt (hperm.map Prod.fst).mem_iff.mpr hname)]

/-- Overrides in range that make of each name what stands in loaded presets load these presets. -/
theorem exists_load_perm {overrides' : Overrides} {configuration' : Document}
    (hgives' : Gives configuration' overrides') (h' : Proper overrides')
    (hrange : ∀ o ∈ overrides', ¬ (completion o).OutOfRange)
    (hnodup : (presets.map Prod.fst).Nodup)
    (hsame : ∀ presets', Merges overrides' presets' → ∀ name,
      presets'.find? name = presets.find? name) :
    ∃ presets', load configuration' = .ok presets' ∧ presets'.Perm presets := by
  have hload : load configuration' = .ok (putAll (completions overrides') builtin) :=
    (load_eq_ok_iff hgives' h').mpr ⟨hrange, rfl⟩
  exact ⟨_, hload, Document.perm_of_lookup (nodup_of_load hgives' h' hload) hnodup
    (hsame _ (merges_of_load hgives' h' hload))⟩

/-- Overrides are completed from the built-in springs, whatever stands beside them. Loading succeeds
exactly if all completed springs are in range, and then makes the built-in presets with the completed
springs in their places and the new ones behind. Otherwise it fails at the first override out of
range: it rejects its first parameter out of range, or that parameter has too many digits to be told
and is a bad value. The order of the overrides does not matter to the presets, and presets that are
restated are loaded as they are. -/
theorem overrides_merged (hgives : Gives configuration overrides) (h : Proper overrides) :
    ((∃ presets, load configuration = .ok presets) ↔
      ∀ o ∈ overrides, ¬ (completion o).OutOfRange) ∧
    (∀ fault, load configuration = .error fault ↔ ∃ front o back, overrides = front ++ o :: back ∧
      (∀ o' ∈ front, ¬ (completion o').OutOfRange) ∧ (completion o).Refuses fault) ∧
    ((∀ o ∈ overrides, (completion o).IsTellable) →
      (Rejected (load configuration) ↔ ∃ o ∈ overrides, (completion o).OutOfRange)) ∧
    ∀ presets, load configuration = .ok presets → Merges overrides presets ∧
      ∀ configuration' overrides', Gives configuration' overrides' →
        overrides'.Perm overrides ∨ Restates presets overrides' →
          ∃ presets', load configuration' = .ok presets' ∧ presets'.Perm presets := by
  have hok : ∀ presets, load configuration = .ok presets ↔ _ := fun _ => load_eq_ok_iff hgives h
  refine ⟨by simp [hok], fun fault => load_eq_error_iff hgives h, rejected_load_iff hgives h,
    fun presets hload => ?_⟩
  have hmerges := merges_of_load hgives h hload
  have hnodup := nodup_of_load hgives h hload
  refine ⟨hmerges, fun configuration' overrides' hgives' hsame => ?_⟩
  rcases hsame with hperm | hrestates
  · have h' : Proper overrides' :=
      ⟨(hperm.map Prod.fst).nodup_iff.mpr h.names, fun o ho => h.numbers o (hperm.mem_iff.mp ho)⟩
    exact exists_load_perm hgives' h'
      (fun o ho => ((hok presets).mp hload).1 o (hperm.mem_iff.mp ho)) hnodup
      fun presets' hmerges' => find?_eq_of_perm hperm hmerges hmerges'
  · have hrange : ∀ name c, presets.find? name = some c → c.IsNumeric ∧ ¬ c.OutOfRange :=
      fun _ _ => in_range_of_load hgives h hload
    have hbuiltin : ∀ name ∈ builtin.map Prod.fst, name ∈ presets.map Prod.fst := by
      rw [hmerges.names]
      exact fun name => List.mem_append_left _
    have hcompletion : ∀ o ∈ overrides', ¬ (completion o).OutOfRange := by
      intro o ho
      obtain ⟨c, hc, hlists⟩ := hrestates.parameters o ho
      rw [completion_eq_of_lists hlists]
      exact (hrange o.1 c hc).2
    exact exists_load_perm hgives' (hrestates.proper hnodup fun name c hc => (hrange name c hc).1)
      hcompletion hnodup fun presets' => hrestates.find?_eq hbuiltin

/-- A built-in spring with another damping and a new one. -/
def softer : Overrides := [("bouncy", [("damping", .int 12)]), ("soft", [("stiffness", .int 50)])]

/-- A new spring as all springs are, and a built-in one that has lost its mass. -/
def massless : Overrides := [("plain", []), ("smooth", [("mass", .int 0)])]

/-- A configuration with overrides and nothing else. -/
def given (overrides : Overrides) : Document :=
  .mapping [("springs", .mapping (overrides.map fun o => (o.1, .mapping o.2)))]

/-- Overrides that load the same in the other order and restated, and a spring refused for its
mass. -/
theorem overrides_merged_softer :
    (∃ presets, load (given softer) = .ok presets ∧ Merges softer presets ∧
      (∃ presets', load (given softer.reverse) = .ok presets' ∧ presets'.Perm presets) ∧
      ∃ presets', load (given (restated presets)) = .ok presets' ∧ presets'.Perm presets) ∧
    Rejected (load (given massless)) := by
  have hgives (overrides : Overrides) : Gives (given overrides) overrides := .given rfl
  have hsofter : Proper softer := ⟨by decide, by simp [softer, lookup, Document.number?]⟩
  have hmassless : Proper massless := ⟨by decide, by simp [massless, lookup, Document.number?]⟩
  constructor
  · obtain ⟨hok, -, -, hmerged⟩ := overrides_merged (hgives softer) hsofter
    have hrange : ∀ o ∈ softer, ¬ (completion o).OutOfRange := by
      simp only [softer, List.forall_mem_cons, List.not_mem_nil, false_imp_iff, implies_true,
        and_true]
      constructor
      · rw [Config.OutOfRange, Document.atMostZero_iff (x := .int 1) rfl,
          Document.atMostZero_iff (x := .int 100) rfl, Document.belowZero_iff (x := .int 12) rfl]
        decide
      · rw [Config.OutOfRange, Document.atMostZero_iff (x := .double 1.0) rfl,
          Document.atMostZero_iff (x := .int 50) rfl, Document.belowZero_iff (x := .double 10.0) rfl]
        decide +kernel
    obtain ⟨presets, hload⟩ := hok.mpr hrange
    obtain ⟨hmerges, hagain⟩ := hmerged presets hload
    have hnodup := nodup_of_load (hgives softer) hsofter hload
    exact ⟨presets, hload, hmerges,
      hagain _ _ (hgives softer.reverse) (.inl (List.reverse_perm _)),
      hagain _ _ (hgives (restated presets)) (.inr (restates_restated hnodup))⟩
  · obtain ⟨-, -, hrejected, -⟩ := overrides_merged (hgives massless) hmassless
    have htold : ∀ o ∈ massless, (completion o).IsTellable := by
      have hsmall : ∀ o ∈ massless, (completion o).mass.magnitude < 10 ^ 20 ∧
          (completion o).stiffness.magnitude < 10 ^ 20 ∧
          (completion o).damping.magnitude < 10 ^ 20 := by decide
      intro o ho v reason hfaulty
      obtain ⟨hmass, hstiffness, hdamping⟩ := hsmall o ho
      cases hfaulty with
      | mass _ => exact Text.lt_unwritable hmass
      | stiffness _ _ => exact Text.lt_unwritable hstiffness
      | damping _ _ _ => exact Text.lt_unwritable hdamping
    refine (hrejected htold).mpr ⟨_, List.mem_cons_of_mem _ List.mem_cons_self, .inl ?_⟩
    exact ⟨.int 0, rfl, rfl⟩

/-- A built-in spring whose mass is below zero. -/
def weightless (n : Nat) : Overrides := [("smooth", [("mass", .int (-n))])]

theorem proper_weightless (n : Nat) : Proper (weightless n) :=
  ⟨List.nodup_singleton _, by simp [weightless, lookup, Document.number?]⟩

theorem atMostZero_weightless (n : Nat) :
    ∀ o ∈ weightless n, (completion o).mass = .int (-n) ∧ (completion o).mass.AtMostZero := by
  rw [weightless, List.forall_mem_singleton]
  have hle : Arith.le (Arith.ofInt (-n) : Document) (Arith.ofInt 0) =
      .ok (decide (-(n : Int) ≤ 0)) := Arith.Whole.le_ofInt _ _
  rw [Document.le_numbers (x := .int (-n)) (y := .int 0) rfl rfl, Except.ok.injEq] at hle
  exact ⟨rfl, .int (-n), rfl, by rw [hle, decide_eq_true_eq]; omega⟩

/-- A mass with too many digits is out of range like any other below zero, but no message can hold
it. -/
theorem load_weightless {n : Nat} (h : Text.unwritable ≤ n) :
    load (given (weightless n)) = .error .badValue := by
  obtain ⟨hmass, hzero⟩ := atMostZero_weightless n _ List.mem_cons_self
  refine (load_eq_error_iff (.given rfl) (proper_weightless n)).mpr
    ⟨[], _, [], rfl, by simp, .untold (.mass hzero) ?_⟩
  rw [hmass, Document.magnitude, Int.natAbs_neg, Int.natAbs_natCast]
  exact h

/-- A spring out of range need not be rejected. -/
theorem endless_mass_not_rejected :
    Gives (given (weightless Text.unwritable)) (weightless Text.unwritable) ∧
      Proper (weightless Text.unwritable) ∧
      (∃ o ∈ weightless Text.unwritable, (completion o).OutOfRange) ∧
      load (given (weightless Text.unwritable)) = .error .badValue ∧
      ¬ Rejected (load (given (weightless Text.unwritable))) := by
  have hload := load_weightless (Nat.le_refl Text.unwritable)
  obtain ⟨-, hzero⟩ := atMostZero_weightless Text.unwritable _ List.mem_cons_self
  refine ⟨.given rfl, proper_weightless _, ⟨_, List.mem_cons_self, .inl hzero⟩, hload, ?_⟩
  rw [hload]
  rintro ⟨cause, h⟩
  cases h

end Presets

end Spring

end Showreel
