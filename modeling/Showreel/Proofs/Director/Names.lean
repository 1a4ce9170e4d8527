import Showreel.Director
import Showreel.Proofs.Document.Shown
import Showreel.Proofs.Fallible

/-!
# Names that a plan uses

Scenes, easings and springs are looked up by name. A name that is found is that of one thing; any
other value is refused with a message, unless it is no key or cannot be shown in one.
-/

namespace Showreel

namespace Document

/-- A value that can be looked up and told in a message. -/
structure IsTellable (v : Document) : Prop where
  isKey : v.isKey = true
  shown : ∃ s, v.shown = .ok s

variable {β : Type} {table : String → Option β} {v : Document} {refusal : Except Fault β}

/-- A look-up that refuses what it does not find yields what the value names. -/
theorem find?_bind_eq_ok_iff (hrefusal : ∀ x, refusal ≠ .ok x) {x : β} :
    (v.find? table >>= fun found => found.elim refusal .ok) = .ok x ↔
      v.name?.bind table = some x := by
  cases v with
  | text s =>
    change (table s).elim refusal .ok = .ok x ↔ table s = some x
    cases table s with
    | none => simpa using hrefusal x
    | some y => simp
  | list items => exact ⟨nofun, nofun⟩
  | mapping entries => exact ⟨nofun, nofun⟩
  | null => exact iff_of_false (hrefusal x) nofun
  | flag b => exact iff_of_false (hrefusal x) nofun
  | int n => exact iff_of_false (hrefusal x) nofun
  | double y => exact iff_of_false (hrefusal x) nofun

theorem find?_bind_onlyRejects (hv : v.isKey = true) (hrefusal : OnlyRejects refusal) :
    OnlyRejects (v.find? table >>= fun found => found.elim refusal .ok) := by
  have hfind : ∃ found, v.find? table = .ok found := by
    cases v <;> first | exact ⟨_, rfl⟩ | cases hv
  refine .bind (.of_exists_ok hfind) fun found _ => ?_
  cases found with
  | none => exact hrefusal
  | some x => exact .ok x

end Document

/-! ## Scenes, easings and springs -/

section Names

variable {v : Document}

theorem Scene.find_eq (v : Document) : Scene.find v = (v.find? Scene.ofName? >>= fun found =>
    found.elim (do reject (.unknownScene (← v.shown) Scene.names)) .ok) := by
  unfold Scene.find
  congr 1
  funext found
  cases found <;> rfl

theorem Director.easing_eq (v : Document) : Director.easing v = (v.find? Easing.ofName? >>=
    fun found => found.elim (do reject (.unknownEasing (← v.shown) Easing.names)) .ok) := by
  unfold Director.easing
  congr 1
  funext found
  cases found <;> rfl

theorem Director.spring_eq (d : Director) (v : Document) : d.spring v = (v.find? d.springs.find? >>=
    fun found => found.elim (do reject (.unknownPreset (← v.shown) d.springs.names)) .ok) := by
  unfold Director.spring
  congr 1
  funext found
  cases found <;> rfl

theorem Scene.find_eq_ok_iff {scene : Scene} :
    Scene.find v = .ok scene ↔ v.name?.bind Scene.ofName? = some scene := by
  rw [Scene.find_eq]
  exact Document.find?_bind_eq_ok_iff fun _ => bind_ne_ok fun _ => reject_ne_ok

theorem Director.easing_eq_ok_iff {easing : Easing} :
    Director.easing v = .ok easing ↔ v.name?.bind Easing.ofName? = some easing := by
  rw [Director.easing_eq]
  exact Document.find?_bind_eq_ok_iff fun _ => bind_ne_ok fun _ => reject_ne_ok

theorem Director.spring_eq_ok_iff {d : Director} {config : Spring.Config Document} :
    d.spring v = .ok config ↔ v.name?.bind d.springs.find? = some config := by
  rw [Director.spring_eq]
  exact Document.find?_bind_eq_ok_iff fun _ => bind_ne_ok fun _ => reject_ne_ok

theorem Scene.find_onlyRejects (hv : v.IsTellable) : OnlyRejects (Scene.find v) := by
  rw [Scene.find_eq]
  exact Document.find?_bind_onlyRejects hv.isKey
    (.bind (.of_exists_ok hv.shown) fun _ _ => .reject _)

theorem Director.easing_onlyRejects (hv : v.IsTellable) : OnlyRejects (Director.easing v) := by
  rw [Director.easing_eq]
  exact Document.find?_bind_onlyRejects hv.isKey
    (.bind (.of_exists_ok hv.shown) fun _ _ => .reject _)

theorem Director.spring_onlyRejects (d : Director) (hv : v.IsTellable) :
    OnlyRejects (d.spring v) := by
  rw [Director.spring_eq]
  exact Document.find?_bind_onlyRejects hv.isKey
    (.bind (.of_exists_ok hv.shown) fun _ _ => .reject _)

end Names

end Showreel
