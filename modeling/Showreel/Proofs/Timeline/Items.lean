import Mathlib.Algebra.Group.Nat.Even
import Showreel.Proofs.Timeline.Refused

/-!
# Lists of items

Segments are due at the even positions of a list of items and transitions at the odd ones. Such a
list is taken apart into both; the first item that is not what is due stops this. Putting segments
and transitions together undoes taking them apart. What is said here holds for lengths of any kind.
-/

namespace Showreel

variable {α : Type}

/-! ## Positions -/

/-- What is due at a position: segments at even ones, transitions at odd ones. -/
def Item.due (position : Nat) : String := if position % 2 = 0 then "Segment" else "Transition"

/-- The item is what is due at a position. -/
def Item.Belongs : Item α → Nat → Prop
  | .segment _, position => position % 2 = 0
  | .transition _, position => position % 2 = 1
  | .other _, _ => False

theorem Item.belongs_add_two (item : Item α) (position : Nat) :
    item.Belongs (position + 2) ↔ item.Belongs position := by
  cases item with
  | segment s => simp [Belongs]
  | transition t => simp [Belongs]
  | other kind => rfl

namespace Timeline

/-- Every item is what is due at its position. -/
def InPlace (items : List (Item α)) : Prop :=
  ∀ (position : Nat) (item : Item α), items[position]? = some item → item.Belongs position

theorem inPlace_cons_cons {first second : Item α} {rest : List (Item α)} :
    InPlace (first :: second :: rest) ↔ first.Belongs 0 ∧ second.Belongs 1 ∧ InPlace rest := by
  constructor
  · intro h
    refine ⟨h 0 first rfl, h 1 second rfl, fun position item hitem => ?_⟩
    exact (item.belongs_add_two position).mp (h (position + 2) item hitem)
  · rintro ⟨hfirst, hsecond, hrest⟩ position item hitem
    match position with
    | 0 =>
      cases hitem
      exact hfirst
    | 1 =>
      cases hitem
      exact hsecond
    | position + 2 => exact (item.belongs_add_two position).mpr (hrest position item hitem)

theorem Alternates.inPlace {items : List (Item α)} {segments : List (Segment α)}
    {transitions : List (Transition α)} (h : Alternates items segments transitions) :
    InPlace items := by
  induction h with
  | last s =>
    intro position item hitem
    obtain ⟨hposition, hitem⟩ := List.getElem?_eq_some_iff.mp hitem
    obtain rfl : position = 0 := by simpa using hposition
    cases hitem
    rfl
  | cons s t _ ih => exact inPlace_cons_cons.mpr ⟨rfl, rfl, ih⟩

/-- Items that are in place and end with a segment are segments and transitions in turn. -/
theorem exists_alternates {items : List (Item α)} (h : InPlace items)
    (hodd : items.length % 2 = 1) :
    ∃ segments transitions, Alternates items segments transitions := by
  match items with
  | [] => simp at hodd
  | [.segment s] => exact ⟨[s], [], .last s⟩
  | .segment s :: .transition t :: rest =>
    have hrest : rest.length % 2 = 1 := by
      simp only [List.length_cons] at hodd
      omega
    obtain ⟨segments, transitions, halt⟩ := exists_alternates (inPlace_cons_cons.mp h).2.2 hrest
    exact ⟨s :: segments, t :: transitions, .cons s t halt⟩
  | .segment s :: .segment s' :: rest => cases (h 1 _ rfl : (1 : Nat) % 2 = 0)
  | .segment s :: .other kind :: rest => exact (h 1 _ rfl).elim
  | .transition t :: rest => cases (h 0 _ rfl : (0 : Nat) % 2 = 1)
  | .other kind :: rest => exact (h 0 _ rfl).elim
termination_by items.length

/-- The segments of items in turn are those at even positions. -/
theorem Alternates.getElem?_even {items : List (Item α)} {segments : List (Segment α)}
    {transitions : List (Transition α)} (h : Alternates items segments transitions) (k : Nat) :
    items[2 * k]? = segments[k]?.map .segment := by
  induction h generalizing k with
  | last s =>
    cases k with
    | zero => rfl
    | succ k => simp [Nat.mul_succ]
  | cons s t _ ih =>
    cases k with
    | zero => rfl
    | succ k =>
      rw [Nat.mul_succ, List.getElem?_cons_succ, List.getElem?_cons_succ, List.getElem?_cons_succ]
      exact ih k

/-- The transitions of items in turn are those at odd positions. -/
theorem Alternates.getElem?_odd {items : List (Item α)} {segments : List (Segment α)}
    {transitions : List (Transition α)} (h : Alternates items segments transitions) (k : Nat) :
    items[2 * k + 1]? = transitions[k]?.map .transition := by
  induction h generalizing k with
  | last s => simp
  | cons s t _ ih =>
    cases k with
    | zero => rfl
    | succ k =>
      rw [Nat.mul_succ, List.getElem?_cons_succ, List.getElem?_cons_succ, List.getElem?_cons_succ]
      exact ih k

/-! ## Taking items apart -/

/-- The first item that is not what is due stops the taking apart. The position at which it begins
is even, since a segment is due there. -/
theorem splitSegment_eq_reject (start : Nat) {items : List (Item α)} {position : Nat}
    {item : Item α} (hitem : items[position]? = some item) (hwrong : ¬ item.Belongs position)
    (hfront : InPlace (items.take position)) :
    splitSegment start items =
      reject (.misplacedItem (start + position) (Item.due position) item.kind) := by
  match position, items with
  | 0, item' :: rest =>
    cases hitem
    cases item with
    | segment s => exact absurd rfl hwrong
    | transition t => rfl
    | other kind => rfl
  | 1, [first] => simp at hitem
  | 1, first :: item' :: rest =>
    cases hitem
    have hfirst := hfront 0 first rfl
    cases first with
    | transition t => cases (hfirst : (0 : Nat) % 2 = 1)
    | other kind => exact hfirst.elim
    | segment s =>
      cases item with
      | transition t => exact absurd rfl hwrong
      | segment s' => rfl
      | other kind => rfl
  | position + 2, [first] => simp at hitem
  | position + 2, first :: second :: rest =>
    rw [List.take_succ_cons, List.take_succ_cons, inPlace_cons_cons] at hfront
    obtain ⟨hfirst, hsecond, hrest⟩ := hfront
    have hitem' : rest[position]? = some item := by simpa using hitem
    have hwrong' : ¬ item.Belongs position := mt (item.belongs_add_two position).mpr hwrong
    have htail := splitSegment_eq_reject (start + 1 + 1) hitem' hwrong' hrest
    have hdue : Item.due (position + 2) = Item.due position := by simp [Item.due]
    cases first with
    | transition t => cases (hfirst : (0 : Nat) % 2 = 1)
    | other kind => exact hfirst.elim
    | segment s =>
      cases second with
      | segment s' => cases (hsecond : (1 : Nat) % 2 = 0)
      | other kind => exact hsecond.elim
      | transition t =>
        rw [splitSegment, splitTransition, htail, hdue]
        simp only [reject_bind]
        rw [show start + 1 + 1 + position = start + (position + 2) by omega]

/-- Items that are in place are taken apart even if they end with a transition. -/
theorem exists_splitSegment (start : Nat) {items : List (Item α)} (h : InPlace items) :
    ∃ parts, splitSegment start items = .ok parts := by
  match items with
  | [] => exact ⟨_, rfl⟩
  | [.segment s] => exact ⟨_, rfl⟩
  | .segment s :: .transition t :: rest =>
    obtain ⟨parts, hparts⟩ := exists_splitSegment (start + 1 + 1) (inPlace_cons_cons.mp h).2.2
    rw [splitSegment, splitTransition, hparts]
    exact ⟨_, rfl⟩
  | .segment s :: .segment s' :: rest => cases (h 1 _ rfl : (1 : Nat) % 2 = 0)
  | .segment s :: .other kind :: rest => exact (h 1 _ rfl).elim
  | .transition t :: rest => cases (h 0 _ rfl : (0 : Nat) % 2 = 1)
  | .other kind :: rest => exact (h 0 _ rfl).elim
termination_by items.length

theorem split_eq_reject_misplaced {items : List (Item α)} {position : Nat} {item : Item α}
    (hitem : items[position]? = some item) (hwrong : ¬ item.Belongs position)
    (hfront : InPlace (items.take position)) :
    split items = reject (.misplacedItem position (Item.due position) item.kind) := by
  have hsplit := splitSegment_eq_reject 0 hitem hwrong hfront
  rw [Nat.zero_add] at hsplit
  cases items with
  | nil => simp at hitem
  | cons first rest => simp [split, hsplit]

theorem split_eq_reject_ends {items : List (Item α)} (hne : items ≠ []) (h : InPlace items)
    (heven : items.length % 2 = 0) : split items = reject .endsInTransition := by
  obtain ⟨parts, hparts⟩ := exists_splitSegment 0 h
  cases items with
  | nil => exact absurd rfl hne
  | cons first rest =>
    rw [List.length_cons] at heven
    simp [split, hparts, heven]

/-! ## Putting items together -/

/-- Segments at even positions and transitions at odd ones, as many of them as have a segment on
both sides. -/
theorem getElem?_interleave {β : Type} (segments transitions : List β)
    (hcount : transitions.length = segments.length - 1) (k : Nat) :
    (interleave segments transitions)[2 * k]? = segments[k]? ∧
      (interleave segments transitions)[2 * k + 1]? = transitions[k]? := by
  induction segments generalizing transitions k with
  | nil =>
    obtain rfl : transitions = [] := List.length_eq_zero_iff.mp hcount
    exact ⟨rfl, rfl⟩
  | cons s segments ih =>
    match segments, transitions with
    | [], [] =>
      cases k with
      | zero => exact ⟨rfl, rfl⟩
      | succ k => simp [interleave, Nat.mul_succ]
    | [], t :: transitions => simp at hcount
    | s' :: segments, [] => simp at hcount
    | s' :: segments, t :: transitions =>
      rw [interleave]
      cases k with
      | zero => exact ⟨rfl, rfl⟩
      | succ k =>
        obtain ⟨heven, hodd⟩ := ih transitions (by simpa using hcount) k
        rw [Nat.mul_succ]
        exact ⟨by simpa using heven, by simpa using hodd⟩

/-- Taking apart undoes putting together. -/
theorem Alternates.eq_interleave {items : List (Item α)} {segments : List (Segment α)}
    {transitions : List (Transition α)} (h : Alternates items segments transitions) :
    items = interleave (segments.map .segment) (transitions.map .transition) := by
  have hcount := h.count
  have hparts := getElem?_interleave (segments.map Item.segment) (transitions.map Item.transition)
    (by simp [hcount])
  apply List.ext_getElem?
  intro position
  rcases Nat.even_or_odd' position with ⟨k, rfl | rfl⟩
  · rw [h.getElem?_even, (hparts k).1, List.getElem?_map]
  · rw [h.getElem?_odd, (hparts k).2, List.getElem?_map]

section Build

variable [Arith α]

/-! ## Transitions that are too long -/

/-- Whether a transition is longer than one of two segments. -/
def exceeds (t : Transition α) (before after : Segment α) : Except Fault Bool := do
  Arith.lt (← Arith.least before.length after.length) t.length

/-- What is said of a transition that is too long. -/
def tooLong (index : Nat) (t : Transition α) (before after : Segment α) :
    Except Fault Rejection := do
  return .transitionTooLong index (← Arith.shown t.length) (← before.name.shown)
    (← Arith.shown before.length) (← after.name.shown) (← Arith.shown after.length)

theorem checkOverlaps_cons (index : Nat) (before after : Segment α) (rest : List (Segment α))
    (t : Transition α) (ts : List (Transition α)) :
    checkOverlaps index (before :: after :: rest) (t :: ts) = (do
      if ← exceeds t before after then tooLong index t before after >>= reject
      else checkOverlaps (index + 1) (after :: rest) ts) := by
  unfold tooLong
  rw [checkOverlaps]
  simp [exceeds]

/-- The check of the overlaps passes exactly if no transition is found too long. -/
theorem checkOverlaps_eq_ok_iff_exceeds {segments : List (Segment α)}
    {transitions : List (Transition α)} (index : Nat) :
    checkOverlaps index segments transitions = .ok () ↔
      ∀ (i : Nat) before t after, segments[i]? = some before → transitions[i]? = some t →
        segments[i + 1]? = some after → exceeds t before after = .ok false := by
  induction transitions generalizing index segments with
  | nil => simp [checkOverlaps]
  | cons t ts ih =>
    rcases segments with _ | ⟨before, _ | ⟨after, rest⟩⟩
    · simp [checkOverlaps]
    · simp [checkOverlaps]
    rw [checkOverlaps_cons, unless_eq_ok_iff (bind_ne_ok fun _ => reject_ne_ok), ih]
    constructor
    · rintro ⟨hfirst, hrest⟩ i b w a hb hw ha
      cases i with
      | zero =>
        cases hb
        cases hw
        cases ha
        exact hfirst
      | succ i => exact hrest i b w a hb hw ha
    · intro h
      exact ⟨h 0 before t after rfl rfl rfl, fun i b w a hb hw ha => h (i + 1) b w a hb hw ha⟩

/-- The first transition that is too long stops the check. -/
theorem checkOverlaps_eq_reject (start : Nat) {segments : List (Segment α)}
    {transitions : List (Transition α)} {index : Nat} {before after : Segment α}
    {t : Transition α} (hbefore : segments[index]? = some before)
    (hafter : segments[index + 1]? = some after) (ht : transitions[index]? = some t)
    (hlong : exceeds t before after = .ok true)
    (hfront : ∀ (i : Nat) b a w, i < index → segments[i]? = some b → segments[i + 1]? = some a →
      transitions[i]? = some w → exceeds w b a = .ok false) :
    checkOverlaps start segments transitions =
      tooLong (start + index) t before after >>= reject := by
  induction index generalizing start segments transitions with
  | zero =>
    match segments, transitions with
    | b :: a :: rest, w :: ts =>
      cases hbefore
      cases hafter
      cases ht
      rw [checkOverlaps_cons, hlong]
      rfl
    | [b], w :: ts => simp at hafter
  | succ index ih =>
    match segments, transitions with
    | b :: a :: rest, w :: ts =>
      have hfirst := hfront 0 b a w (Nat.succ_pos index) rfl rfl rfl
      have htail := ih (start + 1) (by simpa using hbefore) (by simpa using hafter)
        (by simpa using ht) fun i b' a' w' hi hb ha hw =>
          hfront (i + 1) b' a' w' (by omega) hb ha hw
      rw [checkOverlaps_cons, hfirst, ok_bind, if_neg (by decide), htail]
      rw [show start + 1 + index = start + (index + 1) by omega]
    | [b], w :: ts => simp at hafter

end Build

end Timeline

end Showreel
