import Showreel.Proofs.Timeline.Accepted

/-!
# Refused timelines

With lengths in whole frames a timeline is made unless its rate of frames is not positive, its items
do not alternate, or an overlap is too long. What is not made is rejected with a message, as long as
the names and numbers in the message can be shown.
-/

namespace Showreel

open Arith (ofInt)

variable {α : Type} [Arith α]

/-- What a message about the item would tell can be shown. -/
def Item.IsShown : Item α → Prop
  | .segment s => (∃ x, s.name.shown = .ok x) ∧ ∃ x, Arith.shown s.length = .ok x
  | .transition t => ∃ x, Arith.shown t.length = .ok x
  | .other _ => True

section Items

variable [Arith.Whole α] {n : Int}

theorem Segment.build_onlyRejects (hn : ∃ x, Arith.shown (ofInt n : α) = .ok x) {name : Document}
    (hname : ∃ x, name.shown = .ok x) (scene : α → Except Fault (Snapshot α)) :
    OnlyRejects (Segment.build (ofInt n) scene name) := by
  unfold Segment.build
  rw [Arith.Whole.le_ofInt, ok_bind]
  refine .ite (fun _ => ?_) fun _ => .ok _
  exact .bind (.of_exists_ok hname) fun _ _ => .bind (.of_exists_ok hn) fun _ _ => .reject _

theorem Transition.build_onlyRejects (hn : ∃ x, Arith.shown (ofInt n : α) = .ok x)
    (presentation : Choice Presentation) (easing : α → Except Fault α)
    (spring : Option (Spring.Config α)) :
    OnlyRejects (Transition.build (ofInt n) presentation easing spring) := by
  unfold Transition.build
  rw [Arith.Whole.lt_ofInt, ok_bind]
  exact .ite (fun _ => .bind (.of_exists_ok hn) fun _ _ => .reject _) fun _ => .ok _

end Items

namespace Timeline

omit [Arith α] in
/-- Taking items apart fails only with a message about one that is misplaced. -/
theorem splitSegment_onlyRejects (position : Nat) (items : List (Item α)) :
    OnlyRejects (splitSegment position items) := by
  match items with
  | [] => exact .ok _
  | [.segment s] => exact .ok _
  | .segment s :: .transition t :: rest =>
    simp only [splitSegment, splitTransition]
    refine .bind (.bind (splitSegment_onlyRejects _ rest) fun _ _ => .ok _) fun _ _ => .ok _
  | .segment s :: .segment s' :: rest => exact .bind (.reject _) fun _ _ => .ok _
  | .segment s :: .other kind :: rest => exact .bind (.reject _) fun _ _ => .ok _
  | .transition t :: rest => exact .reject _
  | .other kind :: rest => exact .reject _
termination_by items.length

omit [Arith α] in
theorem split_onlyRejects (items : List (Item α)) : OnlyRejects (split items) := by
  unfold split
  cases items with
  | nil => exact .reject _
  | cons item rest =>
    rw [if_neg (by simp)]
    refine .bind (splitSegment_onlyRejects _ _) fun parts _ => ?_
    split
    case isTrue => exact .reject _
    case isFalse => exact .ok _

variable [Arith.Whole α]

/-- Comparing overlaps with lengths fails only with a message about one that is too long. -/
theorem checkOverlaps_onlyRejects {segments : List (Segment α)} {transitions : List (Transition α)}
    (hsegments : ∀ s ∈ segments, (Item.segment s).IsWhole ∧ (Item.segment s).IsShown)
    (htransitions : ∀ t ∈ transitions, (Item.transition t).IsWhole ∧ (Item.transition t).IsShown)
    (index : Nat) : OnlyRejects (checkOverlaps index segments transitions) := by
  induction transitions generalizing index segments with
  | nil =>
    match segments with
    | [] => exact .ok ()
    | [s] => exact .ok ()
    | s :: s' :: rest => exact .ok ()
  | cons t transitions ih =>
    match segments with
    | [] => exact .ok ()
    | [s] => exact .ok ()
    | s :: s' :: rest =>
      obtain ⟨hs, hsname, hsshown⟩ := hsegments s (by simp)
      obtain ⟨hs', hsname', hsshown'⟩ := hsegments s' (by simp)
      obtain ⟨ht, htshown⟩ := htransitions t (by simp)
      obtain ⟨n, -, hn⟩ := Item.isWhole_segment_iff.mp hs
      obtain ⟨n', -, hn'⟩ := Item.isWhole_segment_iff.mp hs'
      obtain ⟨d, -, hd⟩ := Item.isWhole_transition_iff.mp ht
      have hleast : Arith.least s.length s'.length = .ok (ofInt (min n n')) := by
        rw [hn, hn', Arith.least_ofInt]
      have hlong : Arith.lt (ofInt (min n n')) t.length = .ok (decide (min n n' < d)) := by
        rw [hd, Arith.Whole.lt_ofInt]
      rw [checkOverlaps, hleast, ok_bind, hlong, ok_bind]
      refine .ite (fun _ => ?_) fun _ => ih (fun x hx => hsegments x (List.mem_cons_of_mem _ hx))
        (fun x hx => htransitions x (List.mem_cons_of_mem _ hx)) (index + 1)
      refine .bind (.of_exists_ok htshown) fun _ _ => .bind (.of_exists_ok hsname) fun _ _ => ?_
      refine .bind (.of_exists_ok hsshown) fun _ _ => .bind (.of_exists_ok hsname') fun _ _ => ?_
      exact .bind (.of_exists_ok hsshown') fun _ _ => .reject _

variable [Spring.Animated α]

/-- Items that alternate become a timeline exactly if the rate of frames is positive and every
overlap fits. -/
theorem exists_build_iff {items : List (Item α)} {segments : List (Segment α)}
    {transitions : List (Transition α)} {lengths overlaps : List Int}
    (halt : Alternates items segments transitions)
    (hsegments : segments.map Segment.length = lengths.map ofInt)
    (htransitions : transitions.map Transition.length = overlaps.map ofInt)
    (hlengths : ∀ n ∈ lengths, 0 < n) (hoverlaps : ∀ d ∈ overlaps, 0 ≤ d) (fps : Int)
    (name : Document) :
    (∃ t, build items (ofInt fps) name = .ok t) ↔ 0 < fps ∧ Fits lengths overlaps := by
  have hcount := halt.lengths_count hsegments htransitions
  constructor
  · rintro ⟨t, h⟩
    obtain ⟨hfps, halt', hcheck, -⟩ := steps_of_build h
    obtain ⟨hs, ht⟩ := halt'.unique halt
    rw [Arith.Whole.le_ofInt] at hfps
    rw [hs, ht] at hcheck
    have hpos := of_decide_eq_false (Except.ok.inj hfps)
    exact ⟨by omega, (checkOverlaps_eq_ok_iff hsegments htransitions hcount 0).mp hcheck⟩
  · rintro ⟨hpos, hfits⟩
    let l : Layout := {
      lengths, overlaps
      lengths_count := hcount
      lengths_pos := hlengths
      overlaps_nonneg := hoverlaps
      overlaps_le := hfits }
    have hfps : Arith.le (ofInt fps : α) (ofInt 0) = .ok false := by
      rw [Arith.Whole.le_ofInt, decide_eq_false (by omega)]
    exact ⟨_, build_eq_ok l hfps halt hsegments htransitions⟩

/-- What does not become a timeline is rejected. -/
theorem build_onlyRejects {items : List (Item α)}
    (hitems : ∀ item ∈ items, item.IsWhole ∧ item.IsShown) {fps : Int}
    (hfps : ∃ x, Arith.shown (ofInt fps : α) = .ok x) (name : Document) :
    OnlyRejects (build items (ofInt fps) name) := by
  by_cases hok : ∃ t, build items (ofInt fps) name = .ok t
  · exact .of_exists_ok hok
  unfold build
  rw [Arith.Whole.le_ofInt, ok_bind]
  by_cases hpos : fps ≤ 0
  · rw [if_pos (decide_eq_true hpos)]
    obtain ⟨x, hx⟩ := hfps
    rw [hx]
    exact .reject _
  · rw [if_neg (by simpa using hpos)]
    refine .bind (split_onlyRejects items) fun (segments, transitions) hsplit => ?_
    have halt := split_eq_ok_iff.mp hsplit
    refine .bind (checkOverlaps_onlyRejects (fun s hs => hitems _ (halt.segment_mem hs))
      (fun t ht => hitems _ (halt.transition_mem ht)) 0) fun _ hcheck => ?_
    -- nothing behind the comparison of overlaps can fail
    obtain ⟨lengths, overlaps, hsegments, htransitions, hlengths, hoverlaps⟩ :=
      halt.exists_lengths fun item hitem => (hitems item hitem).1
    have hcount := halt.lengths_count hsegments htransitions
    have hfits := (checkOverlaps_eq_ok_iff hsegments htransitions hcount 0).mp hcheck
    exact absurd ((exists_build_iff halt hsegments htransitions hlengths hoverlaps fps name).mpr
      ⟨by omega, hfits⟩) hok

end Timeline

end Showreel
