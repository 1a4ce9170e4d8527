import Mathlib.Data.List.Basic
import Showreel.Storyboard

/-!
# Storyboards that share entries

What a storyboard shows is told entry by entry, by the numbers that it holds. An entry that is added
to one that shares it with nobody stands at the end, with the next place.
-/

namespace Showreel

theorem getElem?_filterMap_of_isSome {α β : Type} {f : α → Option β} {xs : List α}
    (h : ∀ x ∈ xs, (f x).isSome) (k : Nat) : (xs.filterMap f)[k]? = xs[k]?.bind f := by
  induction xs generalizing k with
  | nil => rfl
  | cons x xs ih =>
    rw [List.forall_mem_cons, Option.isSome_iff_exists] at h
    obtain ⟨⟨y, hy⟩, hrest⟩ := h
    rw [List.filterMap_cons_some hy]
    cases k with
    | zero => simp [hy]
    | succ k => simpa using ih hrest k

/-- With one item more, what stands at a place stood there before or is the new one at the end. -/
theorem getElem?_concat_eq_some {α : Type} {xs : List α} {x y : α} {k : Nat}
    (h : (xs ++ [x])[k]? = some y) : xs[k]? = some y ∨ k = xs.length ∧ y = x := by
  rw [List.getElem?_append] at h
  split at h
  case isTrue => exact .inl h
  case isFalse hnew =>
    have hlast := (List.getElem?_eq_some_iff.mp h).1
    rw [List.length_singleton] at hlast
    exact .inr ⟨by omega, List.mem_singleton.mp (List.mem_of_getElem? h)⟩

theorem modify_concat {α : Type} (xs : List α) (x : α) (f : α → α) :
    (xs ++ [x]).modify xs.length f = xs ++ [f x] := by
  simp [List.modify_eq_set_getElem?]

namespace Board

variable {board : Board} {entries : List SceneEntry}

/-- Every scene is the entry under the number that the storyboard holds in its place. -/
theorem getElem?_seen (h : ∀ i ∈ board.scenes, i < entries.length) (k : Nat) :
    (board.seen entries).scenes[k]? = board.scenes[k]?.bind fun i => entries[i]? :=
  getElem?_filterMap_of_isSome (fun i hi => by simpa using h i hi) k

/-- Making further entries changes nothing that is seen. -/
theorem seen_append (h : ∀ i ∈ board.scenes, i < entries.length) (others : List SceneEntry) :
    board.seen (entries ++ others) = board.seen entries := by
  have hscenes : board.scenes.filterMap (fun i => (entries ++ others)[i]?) =
      board.scenes.filterMap fun i => entries[i]? :=
    List.filterMap_congr fun i hi => List.getElem?_append_left (h i hi)
  rw [seen, seen, hscenes]

/-- One entry more is seen behind the others. -/
theorem seen_concat {i : Nat} {e : SceneEntry} (h : entries[i]? = some e) :
    ({ board with scenes := board.scenes ++ [i] } : Board).seen entries =
      { board.seen entries with scenes := (board.seen entries).scenes ++ [e] } := by
  simp [seen, h]

end Board

namespace Storyboard

theorem seen_board (sb : Storyboard) : (sb.board 0).seen sb.scenes = sb := by
  have hheld : ∀ i ∈ (sb.board 0).scenes, i < sb.scenes.length := by simp [board]
  have hscenes : ((sb.board 0).seen sb.scenes).scenes = sb.scenes := by
    apply List.ext_getElem?
    intro k
    rw [Board.getElem?_seen hheld]
    rcases Nat.lt_or_ge k sb.scenes.length with hk | hk
    · simp [board, hk]
    · simp [board, hk]
  calc (sb.board 0).seen sb.scenes
    _ = { sb with scenes := ((sb.board 0).seen sb.scenes).scenes } := rfl
    _ = sb := by rw [hscenes]

/-- An entry that is held nowhere else stands at the end, with the next place. -/
theorem addScene_eq (sb : Storyboard) (e : SceneEntry) :
    sb.addScene e =
      { sb with scenes := sb.scenes ++ [{ e with sceneIndex := sb.scenes.length }] } := by
  have hheld : ∀ i ∈ (sb.board 0).scenes, i < sb.scenes.length := by simp [board]
  have hplace : (sb.board 0).scenes.length = sb.scenes.length := List.length_range'
  rw [addScene, Board.addScene, hplace, modify_concat]
  refine (Board.seen_concat List.getElem?_concat_length).trans ?_
  rw [Board.seen_append hheld, seen_board]

end Storyboard

end Showreel
