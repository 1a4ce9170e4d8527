import Showreel.Proofs.Storyboard.Authored

/-!
# Storyboards in the making

While storyboards are authored, entries are made, storyboards are begun empty, taken from templates
or read from documents, and any entry is put into any storyboard. A storyboard holds the entry
itself: one that is put somewhere again is told its new place, and this is seen wherever it is held.
So every storyboard lists its scenes in the order in which they were put in, but its entries know
their places exactly if those are the places at which they were put last, as they are when every
entry was put somewhere only once.
-/

namespace Showreel

open Document (IsKeyed)

/-! ## Logs -/

/-- An entry was put into a storyboard, which then stood at a place there. -/
structure Placing where
  board : Nat
  entry : Nat
  place : Nat
  sceneId : Document

namespace Placing

/-- What was put into a storyboard, in order. -/
def into (log : List Placing) (b : Nat) : List Placing := log.filter fun p => p.board = b

/-- Where an entry was put, in order. -/
def of (log : List Placing) (i : Nat) : List Placing := log.filter fun p => p.entry = i

/-- The place at which an entry was put last. -/
def lastPlace (log : List Placing) (i : Nat) : Option Nat := (of log i).getLast?.map place

/-- Entries from a number on were put into a storyboard, one behind the other. -/
def inOrder (board first : Nat) (ids : List Document) : List Placing :=
  ids.mapIdx fun k sceneId => { board, entry := first + k, place := k, sceneId }

theorem into_concat (log : List Placing) (p : Placing) (b : Nat) :
    into (log ++ [p]) b = if p.board = b then into log b ++ [p] else into log b := by
  split
  case isTrue h => simp [into, h]
  case isFalse h => simp [into, h]

theorem lastPlace_concat (log : List Placing) (p : Placing) (i : Nat) :
    lastPlace (log ++ [p]) i = if p.entry = i then some p.place else lastPlace log i := by
  split
  case isTrue h => simp [lastPlace, of, h]
  case isFalse h => simp [lastPlace, of, h]

theorem exists_of_lastPlace {log : List Placing} {i k : Nat} (h : lastPlace log i = some k) :
    ∃ p ∈ log, p.entry = i ∧ p.place = k := by
  obtain ⟨p, hp, rfl⟩ := Option.map_eq_some_iff.mp h
  have hof := List.mem_of_getLast? hp
  rw [of, List.mem_filter, decide_eq_true_eq] at hof
  exact ⟨p, hof.1, hof.2, rfl⟩

end Placing

open Placing (into lastPlace inOrder)

/-! ## Desks -/

/-- All entries that were made, and all storyboards. -/
structure Desk where
  entries : List SceneEntry := []
  boards : List Board := []

namespace Desk

/-- Makes an entry, which no storyboard holds yet. -/
def make (desk : Desk) (e : SceneEntry) : Desk := { desk with entries := desk.entries ++ [e] }

/-- Begins an empty storyboard. -/
def start (desk : Desk) (heading : Heading) : Desk :=
  { desk with boards := desk.boards ++ [{ toHeading := heading }] }

/-- Adds an entry to a storyboard. -/
def addScene (desk : Desk) (b i : Nat) : Desk :=
  match desk.boards[b]? with
  | some board =>
    let (board, entries) := board.addScene desk.entries i
    { entries, boards := desk.boards.set b board }
  | none => desk

theorem addScene_eq {desk : Desk} {b i : Nat} {board : Board} (hb : desk.boards[b]? = some board) :
    desk.addScene b i = {
      entries := desk.entries.modify i fun e => { e with sceneIndex := board.scenes.length }
      boards := desk.boards.set b { board with scenes := board.scenes ++ [i] } } := by
  simp only [addScene, hb, Board.addScene]

/-- Takes in a storyboard whose entries were made for it alone. -/
def take (desk : Desk) (sb : Storyboard) : Desk :=
  { entries := desk.entries ++ sb.scenes, boards := desk.boards ++ [sb.board desk.entries.length] }

/-- A log tells what is held where and which places the entries know. -/
structure IsTold (desk : Desk) (log : List Placing) : Prop where
  held : ∀ {b : Nat} {board : Board}, desk.boards[b]? = some board →
    board.scenes = (into log b).map Placing.entry
  placed : ∀ {b k : Nat} {p : Placing}, (into log b)[k]? = some p → p.place = k
  known : ∀ p ∈ log, p.board < desk.boards.length ∧
    ∃ e, desk.entries[p.entry]? = some e ∧ e.sceneId = p.sceneId
  last : ∀ {i : Nat} {e : SceneEntry} {k : Nat}, desk.entries[i]? = some e →
    lastPlace log i = some k → e.sceneIndex = k
  headings_keyed : ∀ board ∈ desk.boards, ∀ v ∈ board.settings, v.IsKeyed
  entries_keyed : ∀ e ∈ desk.entries, ∀ v ∈ e.settings, v.IsKeyed

variable {desk : Desk} {log : List Placing}

section Told

variable (h : desk.IsTold log)

include h

theorem IsTold.lt_of_lastPlace {i k : Nat} (hk : lastPlace log i = some k) :
    i < desk.entries.length := by
  obtain ⟨p, hp, rfl, -⟩ := Placing.exists_of_lastPlace hk
  obtain ⟨-, e, he, -⟩ := h.known p hp
  exact (List.getElem?_eq_some_iff.mp he).1

theorem IsTold.into_eq_nil {b : Nat} (hb : desk.boards.length ≤ b) : into log b = [] := by
  rw [into, List.filter_eq_nil_iff]
  intro p hp
  have hboard := (h.known p hp).1
  simp only [decide_eq_true_eq]
  omega

theorem IsTold.make {e : SceneEntry} (he : ∀ v ∈ e.settings, v.IsKeyed) :
    (desk.make e).IsTold log where
  held := h.held
  placed := h.placed
  known p hp := by
    obtain ⟨hboard, e', he', hid⟩ := h.known p hp
    refine ⟨hboard, e', ?_, hid⟩
    rw [Desk.make, List.getElem?_append_left (List.getElem?_eq_some_iff.mp he').1, he']
  last hi hk := by
    rw [Desk.make, List.getElem?_append_left (h.lt_of_lastPlace hk)] at hi
    exact h.last hi hk
  headings_keyed := h.headings_keyed
  entries_keyed := List.forall_mem_append.mpr ⟨h.entries_keyed, by simpa using he⟩

theorem IsTold.start {heading : Heading} (hheading : ∀ v ∈ heading.settings, v.IsKeyed) :
    (desk.start heading).IsTold log where
  held {b board} hb := by
    rcases getElem?_concat_eq_some hb with hold | ⟨rfl, rfl⟩
    · exact h.held hold
    · rw [h.into_eq_nil (Nat.le_refl _)]
      rfl
  placed := h.placed
  known p hp := by
    obtain ⟨hboard, hknown⟩ := h.known p hp
    exact ⟨by simp only [Desk.start, List.length_append]; omega, hknown⟩
  last := h.last
  headings_keyed := List.forall_mem_append.mpr ⟨h.headings_keyed, by simpa using hheading⟩
  entries_keyed := h.entries_keyed

/-- An entry is told its new place, whatever other place it had, and nothing else changes. -/
theorem IsTold.addScene {b i : Nat} {board : Board} {e : SceneEntry}
    (hb : desk.boards[b]? = some board) (he : desk.entries[i]? = some e) :
    (desk.addScene b i).IsTold (log ++
      [{ board := b, entry := i, place := board.scenes.length, sceneId := e.sceneId }]) := by
  have hlength : board.scenes.length = (into log b).length := by rw [h.held hb, List.length_map]
  rw [Desk.addScene_eq hb]
  constructor
  case held =>
    intro b' board' hb'
    rw [List.getElem?_set] at hb'
    rw [Placing.into_concat]
    by_cases hsame : b = b'
    · rw [if_pos hsame, if_pos (List.getElem?_eq_some_iff.mp hb).1] at hb'
      cases hb'
      subst hsame
      rw [if_pos rfl, List.map_append, ← h.held hb]
      rfl
    · rw [if_neg hsame] at hb'
      rw [if_neg hsame, h.held hb']
  case placed =>
    intro b' k p hp
    rw [Placing.into_concat] at hp
    split at hp
    case isFalse => exact h.placed hp
    case isTrue hsame =>
      obtain rfl : b = b' := hsame
      rcases getElem?_concat_eq_some hp with hold | ⟨rfl, rfl⟩
      · exact h.placed hold
      · exact hlength
  case known =>
    intro p hp
    have hin := (List.getElem?_eq_some_iff.mp hb).1
    rw [List.mem_append, List.mem_singleton] at hp
    rw [List.length_set, List.getElem?_modify]
    rcases hp with hp | rfl
    · obtain ⟨hboard, e', he', hid⟩ := h.known p hp
      refine ⟨hboard, _, congrArg _ he', ?_⟩
      split
      · exact hid
      · exact hid
    · exact ⟨hin, _, congrArg _ he, by simp⟩
  case last =>
    intro j e' k hj hk
    rw [List.getElem?_modify] at hj
    obtain ⟨e'', he'', rfl⟩ := Option.map_eq_some_iff.mp hj
    rw [Placing.lastPlace_concat] at hk
    split at hk
    case isTrue hsame =>
      obtain rfl : i = j := hsame
      rw [if_pos rfl]
      exact Option.some.inj hk
    case isFalse hother =>
      rw [if_neg hother]
      exact h.last he'' hk
  case headings_keyed =>
    intro board' hboard'
    rcases List.mem_or_eq_of_mem_set hboard' with hold | rfl
    · exact h.headings_keyed board' hold
    · exact h.headings_keyed board (List.mem_of_getElem? hb)
  case entries_keyed =>
    intro e' he'
    obtain ⟨j, hj⟩ := List.mem_iff_getElem?.mp he'
    rw [List.getElem?_modify] at hj
    obtain ⟨e'', he'', rfl⟩ := Option.map_eq_some_iff.mp hj
    have hkeyed := h.entries_keyed e'' (List.mem_of_getElem? he'')
    split
    · exact hkeyed
    · exact hkeyed

end Told

/-! ## Storyboards that are taken in -/

theorem take_of_nil {sb : Storyboard} (h : sb.scenes = []) :
    desk.take sb = desk.start sb.toHeading := by
  simp [take, start, Storyboard.board, h]

theorem board_of_take_make (desk : Desk) (sb : Storyboard) (e : SceneEntry) :
    ((desk.take sb).make e).boards[desk.boards.length]? = some (sb.board desk.entries.length) :=
  List.getElem?_concat_length

/-- Taking in a storyboard is making its entries and adding them, one after the other. -/
theorem take_addScene (desk : Desk) (sb : Storyboard) (e : SceneEntry) :
    desk.take (sb.addScene e) = ((desk.take sb).make e).addScene desk.boards.length
      (desk.entries.length + sb.scenes.length) := by
  have hentries : (desk.entries ++ (sb.scenes ++ [e])).modify
      (desk.entries.length + sb.scenes.length) (fun e => { e with
        sceneIndex := sb.scenes.length }) =
      desk.entries ++ (sb.scenes ++ [{ e with sceneIndex := sb.scenes.length }]) := by
    rw [← List.append_assoc, ← List.length_append, modify_concat, List.append_assoc]
  rw [addScene_eq (desk.board_of_take_make sb e), Storyboard.addScene_eq]
  simp [take, make, Storyboard.board, hentries, List.range'_1_concat]

theorem IsTold.take (h : desk.IsTold log) {sb : Storyboard} (hindexed : sb.IsIndexed)
    (hheading : ∀ v ∈ sb.settings, v.IsKeyed)
    (hentries : ∀ e ∈ sb.scenes, ∀ v ∈ e.settings, v.IsKeyed) :
    (desk.take sb).IsTold (log ++ inOrder desk.boards.length desk.entries.length sb.sceneIds) := by
  obtain ⟨heading, scenes⟩ := sb
  induction scenes using List.reverseRecOn with
  | nil =>
    rw [take_of_nil rfl]
    simpa [Storyboard.sceneIds, inOrder] using h.start hheading
  | append_singleton init e ih =>
    rw [List.forall_mem_append, List.forall_mem_singleton] at hentries
    have hplace : e.sceneIndex = init.length := hindexed _ e List.getElem?_concat_length
    have hinit : Storyboard.IsIndexed ⟨heading, init⟩ := fun k e' he' =>
      hindexed k e' (by
        rw [List.getElem?_append_left (List.getElem?_eq_some_iff.mp he').1, he'])
    have hadded : Storyboard.addScene ⟨heading, init⟩ e = ⟨heading, init ++ [e]⟩ := by
      rw [Storyboard.addScene_eq, ← hplace]
    have hnew : ((desk.take ⟨heading, init⟩).make e).entries[desk.entries.length + init.length]? =
        some e := by
      rw [← List.length_append]
      exact List.getElem?_concat_length
    have htold := ((ih hinit hheading hentries.1).make hentries.2).addScene
      (desk.board_of_take_make ⟨heading, init⟩ e) hnew
    rw [← hadded, take_addScene]
    convert htold using 1
    simp [Storyboard.sceneIds, Storyboard.addScene_eq, inOrder, List.mapIdx_concat,
      Storyboard.board]

section Seen

variable (h : desk.IsTold log) {b : Nat} {board : Board} (hb : desk.boards[b]? = some board)

include h hb

theorem IsTold.getElem?_seen (k : Nat) : (board.seen desk.entries).scenes[k]? =
    (into log b)[k]?.bind fun p => desk.entries[p.entry]? := by
  have hheld : ∀ i ∈ board.scenes, i < desk.entries.length := by
    intro i hi
    rw [h.held hb, List.mem_map] at hi
    obtain ⟨p, hp, rfl⟩ := hi
    obtain ⟨-, e, he, -⟩ := h.known p (List.mem_of_mem_filter hp)
    exact (List.getElem?_eq_some_iff.mp he).1
  rw [Board.getElem?_seen hheld, h.held hb, List.getElem?_map]
  cases (into log b)[k]? with
  | none => rfl
  | some p => rfl

end Seen

end Desk

end Showreel
