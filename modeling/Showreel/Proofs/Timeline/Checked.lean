import Showreel.Proofs.Document.Shown
import Showreel.Proofs.Timeline.Items
import Showreel.Proofs.Timeline.Shown

/-!
# Checks in their order

A list of items with whole lengths is checked for its rate of frames, then for what stands at its
positions, then for transitions that are too long. It becomes a timeline if it passes; otherwise the
first check that fails decides what is said. Nothing is said if an integer in the message has too
many digits to be written.
-/

namespace Showreel

variable {α : Type}

/-- The frames that a segment lasts, if they are a whole number. -/
def Segment.frames (s : Segment Document) : Int :=
  match s.length with
  | .int n => n
  | _ => 0

/-- The frames that a transition takes, if they are a whole number. -/
def Transition.frames (t : Transition Document) : Int :=
  match t.length with
  | .int d => d
  | _ => 0

theorem Item.IsWhole.segment_length {s : Segment Document} (h : (Item.segment s).IsWhole) :
    s.length = .int s.frames := by
  obtain ⟨n, -, hn⟩ := Item.isWhole_segment_iff.mp h
  have hlength : s.length = .int n := hn
  simp [Segment.frames, hlength]

theorem Item.IsWhole.transition_length {t : Transition Document}
    (h : (Item.transition t).IsWhole) : t.length = .int t.frames := by
  obtain ⟨d, -, hd⟩ := Item.isWhole_transition_iff.mp h
  have hlength : t.length = .int d := hd
  simp [Transition.frames, hlength]

namespace Timeline

/-- Two neighbouring segments of a list of items and the transition between them. -/
structure Meeting (items : List (Item α)) (index : Nat) (before : Segment α) (t : Transition α)
    (after : Segment α) : Prop where
  before : items[2 * index]? = some (.segment before)
  transition : items[2 * index + 1]? = some (.transition t)
  after : items[2 * index + 2]? = some (.segment after)

theorem Alternates.meeting_iff {items : List (Item α)} {segments : List (Segment α)}
    {transitions : List (Transition α)} (h : Alternates items segments transitions) {index : Nat}
    {before after : Segment α} {t : Transition α} :
    Meeting items index before t after ↔ segments[index]? = some before ∧
      transitions[index]? = some t ∧ segments[index + 1]? = some after := by
  have hbefore := h.getElem?_even index
  have ht := h.getElem?_odd index
  have hafter := h.getElem?_even (index + 1)
  rw [Nat.mul_succ] at hafter
  constructor
  · rintro ⟨hb, hw, ha⟩
    rw [hbefore] at hb
    rw [ht] at hw
    rw [hafter] at ha
    simp only [Option.map_eq_some_iff, Item.segment.injEq, Item.transition.injEq,
      exists_eq_right] at hb hw ha
    exact ⟨hb, hw, ha⟩
  · rintro ⟨hb, hw, ha⟩
    exact ⟨by rw [hbefore, hb]; rfl, by rw [ht, hw]; rfl, by rw [hafter, ha]; rfl⟩

/-- What the first check that fails says of a list of items, if that can be written. The rate comes
first, then the places of the items, then the lengths of the transitions. -/
inductive Refusal (items : List (Item Document)) (fps : Int) : Except Fault Rejection → Prop
  | rate : fps ≤ 0 → Refusal items fps (do return .fpsNotPositive (← (Document.int fps).shown))
  | empty : 0 < fps → items = [] → Refusal items fps (.ok .emptyTimeline)
  | misplaced {position : Nat} {item : Item Document} : 0 < fps → items[position]? = some item →
      ¬ item.Belongs position → InPlace (items.take position) →
      Refusal items fps (.ok (.misplacedItem position (Item.due position) item.kind))
  | unfinished : 0 < fps → items ≠ [] → InPlace items → items.length % 2 = 0 →
      Refusal items fps (.ok .endsInTransition)
  | long {index : Nat} {before after : Segment Document} {t : Transition Document} : 0 < fps →
      InPlace items → items.length % 2 = 1 → Meeting items index before t after →
      ¬ (t.frames ≤ before.frames ∧ t.frames ≤ after.frames) →
      (∀ i < index, ∀ b w a, Meeting items i b w a → w.frames ≤ b.frames ∧ w.frames ≤ a.frames) →
      Refusal items fps (tooLong index t before after)

/-- The check of every transition passes on a list of items. -/
def AllFit (items : List (Item Document)) : Prop :=
  ∀ index before t after, Meeting items index before t after →
    t.frames ≤ before.frames ∧ t.frames ≤ after.frames

section Whole

variable {items : List (Item Document)} {segments : List (Segment Document)}
  {transitions : List (Transition Document)}

theorem Alternates.fits_iff (h : Alternates items segments transitions) :
    Fits (segments.map Segment.frames) (transitions.map Transition.frames) ↔ AllFit items := by
  have hcount := h.count
  constructor
  · intro hfits index before t after hmeeting
    obtain ⟨hbefore, ht, hafter⟩ := h.meeting_iff.mp hmeeting
    obtain ⟨hindex, -⟩ := List.getElem?_eq_some_iff.mp ht
    have hfit := hfits index (by simpa using hindex)
    simpa [List.getD_eq_getElem?_getD, hbefore, ht, hafter] using hfit
  · intro hall index hindex
    rw [List.length_map] at hindex
    have hbefore := List.getElem?_eq_getElem (l := segments) (show index < segments.length by omega)
    have ht := List.getElem?_eq_getElem hindex
    have hafter :=
      List.getElem?_eq_getElem (l := segments) (show index + 1 < segments.length by omega)
    have hfit := hall index _ _ _ (h.meeting_iff.mpr ⟨hbefore, ht, hafter⟩)
    simpa [List.getD_eq_getElem?_getD, hbefore, ht, hafter] using hfit

theorem exceeds_eq {before after : Segment Document} {t : Transition Document}
    (hbefore : (Item.segment before).IsWhole) (ht : (Item.transition t).IsWhole)
    (hafter : (Item.segment after).IsWhole) :
    exceeds t before after =
      .ok (decide ¬ (t.frames ≤ before.frames ∧ t.frames ≤ after.frames)) := by
  have hleast : Arith.least (Document.int before.frames) (.int after.frames) =
      .ok (.int (min before.frames after.frames)) := Arith.least_ofInt _ _
  have hlong : Arith.lt (Document.int (min before.frames after.frames)) (.int t.frames) =
      .ok (decide (min before.frames after.frames < t.frames)) := Arith.Whole.lt_ofInt _ _
  unfold exceeds
  rw [hbefore.segment_length, hafter.segment_length, ht.transition_length, hleast, ok_bind, hlong]
  congr 2
  rw [eq_iff_iff]
  omega

variable {fps : Int} {name : Document}

/-- The check of the overlaps stops at the first transition that is too long. -/
theorem Alternates.checkOverlaps_eq (halt : Alternates items segments transitions)
    (hitems : ∀ item ∈ items, item.IsWhole) {index : Nat} {before after : Segment Document}
    {t : Transition Document} (hmeeting : Meeting items index before t after)
    (hlong : ¬ (t.frames ≤ before.frames ∧ t.frames ≤ after.frames))
    (hfront : ∀ i < index, ∀ b w a, Meeting items i b w a →
      w.frames ≤ b.frames ∧ w.frames ≤ a.frames) :
    checkOverlaps 0 segments transitions = tooLong index t before after >>= reject := by
  have hwhole : ∀ {i b w a}, Meeting items i b w a →
      exceeds w b a = .ok (decide ¬ (w.frames ≤ b.frames ∧ w.frames ≤ a.frames)) :=
    fun h => exceeds_eq (hitems _ (List.mem_of_getElem? h.before))
      (hitems _ (List.mem_of_getElem? h.transition)) (hitems _ (List.mem_of_getElem? h.after))
  have hexceeds : exceeds t before after = .ok true := by
    rw [hwhole hmeeting, decide_eq_true hlong]
  obtain ⟨hbefore, ht, hafter⟩ := halt.meeting_iff.mp hmeeting
  have hcheck := checkOverlaps_eq_reject 0 hbefore hafter ht hexceeds fun i b a w hi hb ha hw => by
    have hearlier := halt.meeting_iff.mpr ⟨hb, hw, ha⟩
    rw [hwhole hearlier, decide_eq_false (not_not.mpr (hfront i hi b w a hearlier))]
  rwa [Nat.zero_add] at hcheck

/-- Where not every item is in place there is a first one that is not. -/
theorem exists_misplaced (h : ¬ InPlace items) :
    ∃ (position : Nat) (item : Item Document), items[position]? = some item ∧
      ¬ item.Belongs position ∧ InPlace (items.take position) := by
  classical
  have hwrong : ∃ (position : Nat) (item : Item Document), items[position]? = some item ∧
      ¬ item.Belongs position := by
    simpa [InPlace] using h
  obtain ⟨item, hitem, hbelongs⟩ := Nat.find_spec hwrong
  refine ⟨_, item, hitem, hbelongs, fun earlier item hearlier => ?_⟩
  rw [List.getElem?_take] at hearlier
  split at hearlier
  case isFalse => cases hearlier
  case isTrue hlt =>
    by_contra hno
    exact Nat.find_min hwrong hlt ⟨item, hearlier, hno⟩

/-- Where not every transition is short enough there is a first one that is not. -/
theorem exists_long (h : ¬ AllFit items) :
    ∃ index before t after, Meeting items index before t after ∧
      ¬ (t.frames ≤ before.frames ∧ t.frames ≤ after.frames) ∧
      ∀ i < index, ∀ b w a, Meeting items i b w a →
        w.frames ≤ b.frames ∧ w.frames ≤ a.frames := by
  classical
  have hlong : ∃ index before t after, Meeting items index before t after ∧
      ¬ (t.frames ≤ before.frames ∧ t.frames ≤ after.frames) := by
    by_contra hno
    refine h fun index before t after hmeeting => ?_
    by_contra hfit
    exact hno ⟨index, before, t, after, hmeeting, hfit⟩
  obtain ⟨before, t, after, hmeeting, hfit⟩ := Nat.find_spec hlong
  refine ⟨_, before, t, after, hmeeting, hfit, fun i hi b w a hearlier => ?_⟩
  by_contra hno
  exact Nat.find_min hlong hi ⟨b, w, a, hearlier, hno⟩

/-- Items fail a check unless they pass all of them. -/
theorem exists_refusal (h : ¬ (0 < fps ∧ items.length % 2 = 1 ∧ InPlace items ∧ AllFit items)) :
    ∃ message, Refusal items fps message := by
  by_cases hfps : 0 < fps
  swap
  · exact ⟨_, .rate (by omega)⟩
  by_cases hnil : items = []
  · exact ⟨_, .empty hfps hnil⟩
  by_cases hplaces : InPlace items
  swap
  · obtain ⟨position, item, hitem, hbelongs, hfront⟩ := exists_misplaced hplaces
    exact ⟨_, .misplaced hfps hitem hbelongs hfront⟩
  by_cases hodd : items.length % 2 = 1
  swap
  · exact ⟨_, .unfinished hfps hnil hplaces (by omega)⟩
  have hlong : ¬ AllFit items := fun hfit => h ⟨hfps, hodd, hplaces, hfit⟩
  obtain ⟨index, before, t, after, hmeeting, hexceeds, hfront⟩ := exists_long hlong
  exact ⟨_, .long hfps hplaces hodd hmeeting hexceeds hfront⟩

theorem writesUpTo_tooLong (index : Nat) (t : Transition Document)
    (before after : Segment Document) :
    ∃ n, Document.WritesUpTo n (tooLong index t before after) := by
  unfold tooLong
  exact ⟨_, (Document.writesUpTo_shown t.length).bind fun _ =>
    (Document.writesUpTo_shown before.name).bind fun _ =>
    (Document.writesUpTo_shown before.length).bind fun _ =>
    (Document.writesUpTo_shown after.name).bind fun _ =>
    (Document.writesUpTo_shown after.length).map _⟩

/-- Only integers with too many digits keep a refusal from being put into words. -/
theorem Refusal.fault_eq {message : Except Fault Rejection} (h : Refusal items fps message)
    {fault : Fault} (hfault : message = .error fault) : fault = .badValue := by
  cases h with
  | rate => exact ((Document.writesUpTo_shown (.int fps)).map _).fault_eq hfault
  | empty => cases hfault
  | misplaced => cases hfault
  | unfinished => cases hfault
  | @long index before after t =>
    obtain ⟨n, hwrites⟩ := writesUpTo_tooLong index t before after
    exact hwrites.fault_eq hfault

theorem Refusal.exists_ok {message : Except Fault Rejection} (h : Refusal items fps message)
    (hshown : ∀ item ∈ items, item.IsShown) (hfps : fps.natAbs < Text.unwritable) :
    ∃ cause, message = .ok cause := by
  cases h with
  | rate => exact ⟨_, by rw [Document.shown_int_eq_ok hfps]; rfl⟩
  | empty => exact ⟨_, rfl⟩
  | misplaced => exact ⟨_, rfl⟩
  | unfinished => exact ⟨_, rfl⟩
  | long _ _ _ hmeeting =>
    obtain ⟨⟨_, hname⟩, _, hlength⟩ := hshown _ (List.mem_of_getElem? hmeeting.before)
    obtain ⟨_, ht⟩ := hshown _ (List.mem_of_getElem? hmeeting.transition)
    obtain ⟨⟨_, hname'⟩, _, hlength'⟩ := hshown _ (List.mem_of_getElem? hmeeting.after)
    exact ⟨_, by rw [tooLong, ht, hname, hlength, hname', hlength']; rfl⟩

variable [Spring.Animated Document]

/-- Items that pass every check become a timeline. -/
theorem exists_build (hitems : ∀ item ∈ items, item.IsWhole) (hfps : 0 < fps)
    (hodd : items.length % 2 = 1) (hplaces : InPlace items) (hfit : AllFit items) :
    ∃ t, build items (.int fps) name = .ok t := by
  obtain ⟨segments, transitions, halt⟩ := exists_alternates hplaces hodd
  have hsegments : segments.map Segment.length = (segments.map Segment.frames).map .int := by
    rw [List.map_map]
    exact List.map_congr_left fun s hs => (hitems _ (halt.segment_mem hs)).segment_length
  have htransitions :
      transitions.map Transition.length = (transitions.map Transition.frames).map .int := by
    rw [List.map_map]
    exact List.map_congr_left fun t ht => (hitems _ (halt.transition_mem ht)).transition_length
  have hlengths : ∀ n ∈ segments.map Segment.frames, 0 < n := by
    rw [List.forall_mem_map]
    intro s hs
    obtain ⟨n, hn, hlength⟩ := Item.isWhole_segment_iff.mp (hitems _ (halt.segment_mem hs))
    cases (hitems _ (halt.segment_mem hs)).segment_length.symm.trans hlength
    exact hn
  have hoverlaps : ∀ d ∈ transitions.map Transition.frames, 0 ≤ d := by
    rw [List.forall_mem_map]
    intro t ht
    obtain ⟨d, hd, hlength⟩ := Item.isWhole_transition_iff.mp (hitems _ (halt.transition_mem ht))
    cases (hitems _ (halt.transition_mem ht)).transition_length.symm.trans hlength
    exact hd
  exact (exists_build_iff halt hsegments htransitions hlengths hoverlaps fps name).mpr
    ⟨hfps, halt.fits_iff.mpr hfit⟩

/-- Items that fail a check are refused with what the first such check says. -/
theorem build_of_refusal (hitems : ∀ item ∈ items, item.IsWhole) {message : Except Fault Rejection}
    (h : Refusal items fps message) : build items (.int fps) name = message >>= reject := by
  have hrate : Arith.le (Document.int fps) (Arith.ofInt 0) = .ok (decide (fps ≤ 0)) :=
    Arith.Whole.le_ofInt fps 0
  have hpositive : 0 < fps → Arith.le (Document.int fps) (Arith.ofInt 0) = .ok false := by
    intro hfps
    rw [hrate, decide_eq_false (by omega)]
  cases h with
  | rate hfps =>
    unfold build
    rw [hrate, ok_bind, if_pos (decide_eq_true hfps)]
    simp only [bind_assoc, pure_bind, reject_bind]
    rfl
  | empty hfps hnil =>
    unfold build
    rw [hpositive hfps, ok_bind, if_neg (by decide), hnil]
    rfl
  | misplaced hfps hitem hwrong hfront =>
    unfold build
    rw [hpositive hfps, ok_bind, if_neg (by decide),
      split_eq_reject_misplaced hitem hwrong hfront]
    rfl
  | unfinished hfps hne hplaces heven =>
    unfold build
    rw [hpositive hfps, ok_bind, if_neg (by decide), split_eq_reject_ends hne hplaces heven]
    rfl
  | long hfps hplaces hodd hmeeting hlong hfront =>
    obtain ⟨segments, transitions, halt⟩ := exists_alternates hplaces hodd
    unfold build
    rw [hpositive hfps, ok_bind, if_neg (by decide), split_eq_ok_iff.mpr halt]
    simp only [ok_bind, halt.checkOverlaps_eq hitems hmeeting hlong hfront, bind_assoc, reject_bind]

end Whole

/-- A timeline is made again of its own segments and transitions. -/
theorem fromParts_of_build [Arith α] [Spring.Animated α] {items : List (Item α)} {fps : α}
    {name : Document} {t : Timeline α} (h : build items fps name = .ok t) :
    fromParts (t.segments.map .segment) (t.transitions.map .transition) t.fps t.name = .ok t := by
  obtain ⟨-, halt, -, -, -, ⟨hfps, hname⟩, -⟩ := steps_of_build h
  have hcount := halt.count
  unfold fromParts
  rw [if_neg (by simp [hcount]), ← halt.eq_interleave, hfps, hname, h]

/-- Items with whole lengths become a timeline exactly if the rate is positive, segments and
transitions alternate from a segment to a segment, and no transition is longer than a neighbour;
otherwise the first check that fails says why, and nothing but an integer with too many digits keeps
it from being said. Segments and transitions kept apart are put together first, and a timeline is
made again of its own. -/
theorem items_checked_in_order [Spring.Animated Document] {items : List (Item Document)}
    (hitems : ∀ item ∈ items, item.IsWhole) (fps : Int) (name : Document) :
    ((∃ t, build items (.int fps) name = .ok t) ↔
      0 < fps ∧ items.length % 2 = 1 ∧ InPlace items ∧ AllFit items) ∧
    ((∃ t, build items (.int fps) name = .ok t) ∨ ∃ message, Refusal items fps message) ∧
    (∀ message, Refusal items fps message → build items (.int fps) name = message >>= reject ∧
      (∀ fault, message = .error fault → fault = .badValue) ∧
      ((∀ item ∈ items, item.IsShown) → fps.natAbs < Text.unwritable →
        ∃ cause, message = .ok cause ∧ build items (.int fps) name = .error (.rejected cause))) ∧
    (∀ t, build items (.int fps) name = .ok t → ∀ k : Nat,
      items[2 * k]? = t.segments[k]?.map .segment ∧
      items[2 * k + 1]? = t.transitions[k]?.map .transition) ∧
    (∀ (segments transitions : List (Item Document)) (rate : Document),
      (transitions.length ≠ segments.length - 1 → fromParts segments transitions rate name =
        .error (.rejected
          (.partsMismatch segments.length (segments.length - 1) transitions.length))) ∧
      (transitions.length = segments.length - 1 → ∃ parts : List (Item Document),
        (∀ k : Nat, parts[2 * k]? = segments[k]? ∧ parts[2 * k + 1]? = transitions[k]?) ∧
        fromParts segments transitions rate name = build parts rate name)) ∧
    ∀ (others : List (Item Document)) (rate title : Document) (t : Timeline Document),
      build others rate title = .ok t →
      fromParts (t.segments.map .segment) (t.transitions.map .transition) t.fps t.name = .ok t := by
  have haccepted : (∃ t, build items (.int fps) name = .ok t) ↔
      0 < fps ∧ items.length % 2 = 1 ∧ InPlace items ∧ AllFit items := by
    constructor
    · rintro ⟨t, ht⟩
      by_contra hno
      obtain ⟨message, hmessage⟩ := exists_refusal hno
      rw [build_of_refusal hitems hmessage] at ht
      exact bind_ne_ok (fun _ => reject_ne_ok) ht
    · rintro ⟨hfps, hodd, hplaces, hfit⟩
      exact exists_build hitems hfps hodd hplaces hfit
  refine ⟨haccepted, ?_, fun message hmessage => ?_, fun t ht k => ?_,
    fun segments transitions rate => ⟨fun hcount => ?_, fun hcount => ?_⟩,
    fun _ _ _ t ht => fromParts_of_build ht⟩
  · by_cases hok : ∃ t, build items (.int fps) name = .ok t
    · exact .inl hok
    · exact .inr (exists_refusal (mt haccepted.mpr hok))
  · have hbuild : build items (.int fps) name = message >>= reject :=
      build_of_refusal hitems hmessage
    refine ⟨hbuild, fun _ => hmessage.fault_eq, fun hshown hwritable => ?_⟩
    obtain ⟨cause, rfl⟩ := hmessage.exists_ok hshown hwritable
    exact ⟨cause, rfl, hbuild⟩
  · obtain ⟨-, halt, -⟩ := steps_of_build ht
    exact ⟨halt.getElem?_even k, halt.getElem?_odd k⟩
  · unfold fromParts
    rw [if_pos hcount]
    rfl
  · refine ⟨interleave segments transitions, getElem?_interleave segments transitions hcount, ?_⟩
    unfold fromParts
    rw [if_neg (not_not.mpr hcount)]

/-- The short segment of the middle is as long as both of its overlaps, which is long enough. -/
theorem items_checked_in_order_shortMiddle :
    (∀ item ∈ shortMiddle, item.IsWhole) ∧ AllFit shortMiddle ∧
      ∃ t, build shortMiddle (.int 30) (.text "cards") = .ok t ∧
        (∀ k : Nat, shortMiddle[2 * k]? = t.segments[k]?.map .segment) ∧
        fromParts (t.segments.map .segment) (t.transitions.map .transition) t.fps t.name =
          .ok t := by
  obtain ⟨t, ht⟩ : ∃ t, build shortMiddle (.int 30) (.text "cards") = .ok t := ⟨_, rfl⟩
  obtain ⟨haccepted, -, -, hparts, -, hagain⟩ :=
    items_checked_in_order shortMiddle_isWhole 30 (.text "cards")
  obtain ⟨-, -, -, hfit⟩ := haccepted.mp ⟨t, ht⟩
  exact ⟨shortMiddle_isWhole, hfit, t, ht, fun k => (hparts t ht k).1, hagain _ _ _ t ht⟩

/-- A length with one digit too many to be written. -/
def untold : Int := 2 * (Text.unwritable - 1)

/-- A transition that is longer than the segment behind it. -/
def endlessFirst : List (Item Document) :=
  [.segment (counting untold "long"), .transition (blend 5), .segment (counting 3 "short")]

/-- What fails a check need not be rejected: here the message would hold a length that cannot be
written. -/
theorem endlessFirst_not_rejected :
    (∀ item ∈ endlessFirst, item.IsWhole) ∧
      Refusal endlessFirst 30 (tooLong 0 (blend 5) (counting untold "long") (counting 3 "short")) ∧
      build endlessFirst (.int 30) (.text "") = .error .badValue ∧
      ¬ ∃ cause, build endlessFirst (.int 30) (.text "") = .error (.rejected cause) := by
  have hone : 1 < Text.unwritable := Text.lt_unwritable (by decide)
  have hlength : ¬ untold.natAbs < Text.unwritable := by
    unfold untold
    omega
  have hwhole : ∀ item ∈ endlessFirst, item.IsWhole := by
    simp only [endlessFirst, List.forall_mem_cons, Item.isWhole_segment_iff,
      Item.isWhole_transition_iff]
    refine ⟨⟨untold, ?_, rfl⟩, ⟨5, by decide, rfl⟩, ⟨3, by decide, rfl⟩, by simp⟩
    unfold untold
    omega
  have halt : Alternates endlessFirst [counting untold "long", counting 3 "short"] [blend 5] :=
    .cons _ _ (.last _)
  have hrefusal : Refusal endlessFirst 30
      (tooLong 0 (blend 5) (counting untold "long") (counting 3 "short")) := by
    refine .long (by decide) halt.inPlace rfl ⟨rfl, rfl, rfl⟩ ?_ (by simp)
    rintro ⟨-, hfit⟩
    exact absurd hfit (by decide)
  have htold : tooLong 0 (blend 5) (counting untold "long") (counting 3 "short") =
      .error .badValue := by
    have hblend : Arith.shown (blend 5).length = .ok "5" :=
      Document.shown_int_eq_ok (Text.lt_unwritable (by decide))
    have hlong : Arith.shown (counting untold "long").length = .error .badValue :=
      Document.shown_int_eq_error hlength
    rw [tooLong, hblend, ok_bind, hlong]
    rfl
  have hbuild : build endlessFirst (.int 30) (.text "") = .error .badValue := by
    rw [build_of_refusal hwhole hrefusal, htold]
    rfl
  refine ⟨hwhole, hrefusal, hbuild, ?_⟩
  rintro ⟨cause, hcause⟩
  rw [hbuild] at hcause
  cases hcause

end Timeline

end Showreel
