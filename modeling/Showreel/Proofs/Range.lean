import Showreel.Proofs.Arith.Measured
import Showreel.Proofs.Curve.Refused
import Showreel.Proofs.Number.Unordered
import Showreel.Proofs.Spring.Config
import Showreel.Proofs.Timeline.Checked

/-!
# Ranges

The parameters of a spring, the lengths of items, the breakpoints of a curve and the rate of frames
have ranges, and what is out of its range is refused. Every check tests whether a number is out of
range, and a comparison with what is no number fails. So what is made of numbers is in range exactly
but for what is no number, which passes every check.
-/

namespace Showreel

namespace Document

/-- A number above zero, or what is no number. -/
def PositiveOrNan (v : Document) : Prop :=
  ∃ x, v.number? = some x ∧ (x.IsNan ∨ (Number.int 0).lt x = true)

/-- A number that is zero or more, or what is no number. -/
def NonnegOrNan (v : Document) : Prop :=
  ∃ x, v.number? = some x ∧ (x.IsNan ∨ (Number.int 0).le x = true)

variable {v : Document}

/-- Only numbers can be compared with an integer. -/
theorem compareBy_int_eq_ok_iff {onNumber : Number → Number → Bool} {onOrder : Ordering → Bool}
    {n : Int} {holds : Bool} : v.compareBy onNumber onOrder (.int n) = .ok holds ↔
      ∃ x, v.number? = some x ∧ onNumber x (.int n) = holds := by
  cases hv : v.number? with
  | some x => simp [compareBy_of_number hv, number?]
  | none =>
    refine iff_of_false ?_ (by simp)
    cases v with
    | null => simp [compareBy, onNumbers, number?]
    | text s => simp [compareBy, onNumbers, number?]
    | list items => simp [compareBy, onNumbers, number?]
    | mapping entries => simp [compareBy, onNumbers, number?]
    | flag b => cases hv
    | int m => cases hv
    | double x => cases hv

theorem le_zero_eq_false_iff : Arith.le v (Arith.ofInt 0) = .ok false ↔ v.PositiveOrNan := by
  rw [show Arith.le v (Arith.ofInt 0) = v.compareBy Number.le (· != .gt) (.int 0) from rfl,
    compareBy_int_eq_ok_iff]
  simp only [Number.le_int_eq_false_iff]
  rfl

theorem lt_zero_eq_false_iff : Arith.lt v (Arith.ofInt 0) = .ok false ↔ v.NonnegOrNan := by
  rw [show Arith.lt v (Arith.ofInt 0) = v.compareBy Number.lt (· == .lt) (.int 0) from rfl,
    compareBy_int_eq_ok_iff]
  simp only [Number.lt_int_eq_false_iff]
  rfl

end Document

/-! ## Springs, segments and transitions -/

theorem Spring.Config.build_eq_ok_iff_ranges {mass damping stiffness clamping : Document}
    {c : Config Document} : build mass damping stiffness clamping = .ok c ↔
      c = ⟨mass, damping, stiffness, clamping⟩ ∧ mass.PositiveOrNan ∧ stiffness.PositiveOrNan ∧
        damping.NonnegOrNan := by
  rw [build_eq_ok_iff_checks, Document.le_zero_eq_false_iff, Document.le_zero_eq_false_iff,
    Document.lt_zero_eq_false_iff]

theorem Segment.build_eq_ok_iff_range {length : Document}
    {scene : Document → Except Fault (Snapshot Document)} {name : Document}
    {s : Segment Document} : Segment.build length scene name = .ok s ↔
      length.PositiveOrNan ∧ s = { length, scene, name } := by
  rw [build_eq_ok_iff_le, Document.le_zero_eq_false_iff]

theorem Transition.build_eq_ok_iff_range {length : Document} {presentation : Choice Presentation}
    {easing : Document → Except Fault Document} {spring : Option (Spring.Config Document)}
    {t : Transition Document} : Transition.build length presentation easing spring = .ok t ↔
      length.NonnegOrNan ∧ t = { length, presentation, easing, spring } := by
  rw [build_eq_ok_iff_lt, Document.lt_zero_eq_false_iff]

/-! ## Curves -/

namespace Curve

variable {bs : List Document} {xs : List Number}

/-- No number is below the one in front of it, as far as both are numbers. -/
def NondecreasingOrNan (xs : List Number) : Prop :=
  xs.IsChain fun a b => a.IsNan ∨ b.IsNan ∨ a.le b = true

theorem nondecreasingOrNan_cons_cons {a b : Number} : NondecreasingOrNan (a :: b :: xs) ↔
    (a.IsNan ∨ b.IsNan ∨ a.le b = true) ∧ NondecreasingOrNan (b :: xs) :=
  List.isChain_cons_cons

/-- Each pair of neighbours is tested on its own, so that numbers may fall across what is none. -/
theorem decreases_eq_false_iff (h : bs.map Document.number? = xs.map some) :
    decreases bs = .ok false ↔ NondecreasingOrNan xs := by
  induction bs generalizing xs with
  | nil =>
    obtain rfl : xs = [] := List.map_eq_nil_iff.mp h.symm
    simp [decreases, NondecreasingOrNan]
  | cons v rest ih =>
    obtain ⟨a, xs, rfl, ha, hrest⟩ := List.map_eq_cons_iff.mp h.symm
    cases rest with
    | nil =>
      obtain rfl : xs = [] := List.map_eq_nil_iff.mp hrest
      simp [decreases, NondecreasingOrNan]
    | cons w rest =>
      obtain ⟨b, xs, rfl, hb, -⟩ := List.map_eq_cons_iff.mp hrest
      rw [decreases, unless_eq_ok_iff (by simp), Document.lt_numbers hb.symm ha.symm,
        Except.ok.injEq, Number.lt_eq_false_iff, or_left_comm, ih hrest.symm,
        nondecreasingOrNan_cons_cons]

theorem build_eq_ok_iff_nondecreasing (h : bs.map Document.number? = xs.map some)
    {vs : List Document} {before after : Choice Extrapolation}
    {easing : Option (Document → Except Fault Document)} {c : Curve Document} :
    build bs vs before after easing = .ok c ↔
      bs.length = vs.length ∧ 2 ≤ bs.length ∧ NondecreasingOrNan xs ∧ before = .known c.before ∧
        after = .known c.after ∧ c.breakpoints = bs ∧ c.values = vs ∧ c.easing = easing := by
  rw [build_eq_ok_iff_decreases, decreases_eq_false_iff h]

end Curve

/-! ## Timelines -/

/-- An item as it is made, or something that is no item at all. -/
inductive Item.IsMade {α : Type} [Arith α] : Item α → Prop
  | segment {length : α} {scene : α → Except Fault (Snapshot α)} {name : Document}
      {s : Segment α} : Segment.build length scene name = .ok s → IsMade (.segment s)
  | transition {length : α} {presentation : Choice Presentation} {easing : α → Except Fault α}
      {spring : Option (Spring.Config α)} {t : Transition α} :
      Transition.build length presentation easing spring = .ok t → IsMade (.transition t)
  | other (kind : String) : IsMade (.other kind)

theorem Item.isMade_segment_iff {s : Segment Document} :
    (Item.segment s).IsMade ↔ s.length.PositiveOrNan := by
  constructor
  · intro h
    cases h with
    | segment hbuild =>
      obtain ⟨hlength, rfl⟩ := Segment.build_eq_ok_iff_range.mp hbuild
      exact hlength
  · intro h
    have hbuild : Segment.build s.length s.scene s.name = .ok s :=
      Segment.build_eq_ok_iff_range.mpr ⟨h, rfl⟩
    exact .segment hbuild

theorem Item.isMade_transition_iff {t : Transition Document} :
    (Item.transition t).IsMade ↔ t.length.NonnegOrNan := by
  constructor
  · intro h
    cases h with
    | transition hbuild =>
      obtain ⟨hlength, rfl⟩ := Transition.build_eq_ok_iff_range.mp hbuild
      exact hlength
  · intro h
    have hbuild : Transition.build t.length t.presentation t.easing t.spring = .ok t :=
      Transition.build_eq_ok_iff_range.mpr ⟨h, rfl⟩
    exact .transition hbuild

namespace Timeline

section Steps

variable {α : Type} [Arith α] [Arith.NeverRejects α]

theorem rejectsNothing_startsFrom (start : α) (segments : List (Segment α))
    (transitions : List (Transition α)) :
    RejectsNothing (startsFrom start segments transitions) := by
  induction transitions generalizing start segments with
  | nil => cases segments <;> exact .ok _
  | cons t ts ih =>
    cases segments with
    | nil => exact .ok _
    | cons s rest =>
      refine (Arith.NeverRejects.add _ _).bind fun stop => ?_
      refine (Arith.NeverRejects.sub _ _).bind fun next => ?_
      exact (ih next rest).bind fun _ => .ok _

theorem rejectsNothing_endsOf (starts : List α) (segments : List (Segment α)) :
    RejectsNothing (endsOf starts segments) :=
  .mapM fun _ _ => Arith.NeverRejects.add _ _

end Steps

section Items

variable {items : List (Item Document)}

/-- No transition is longer than one of the segments around it, as far as lengths are numbers. The
length in front is looked at first: where it is no number every transition passes, and where the
length behind is none only the one in front counts. -/
def AllFitOrNan (items : List (Item Document)) : Prop :=
  ∀ index before t after x d y, Meeting items index before t after →
    before.length.number? = some x → t.length.number? = some d → after.length.number? = some y →
    x.IsNan ∨ d.IsNan ∨ d.le x = true ∧ (y.IsNan ∨ d.le y = true)

theorem exceeds_eq_false_iff {before after : Segment Document} {t : Transition Document}
    {x d y : Number} (hx : before.length.number? = some x) (hd : t.length.number? = some d)
    (hy : after.length.number? = some y) : exceeds t before after = .ok false ↔
      x.IsNan ∨ d.IsNan ∨ d.le x = true ∧ (y.IsNan ∨ d.le y = true) := by
  have hleast : Arith.least before.length after.length =
      .ok (if y.lt x then after.length else before.length) := by
    rw [Arith.least, Document.lt_numbers hy hx, ok_bind]
    split <;> rfl
  have hnumber : (if y.lt x then after.length else before.length).number? =
      some (if y.lt x then y else x) := by
    split
    · exact hy
    · exact hx
  rw [exceeds, hleast, ok_bind, Document.lt_numbers hnumber hd, Except.ok.injEq,
    Number.least_lt_eq_false_iff]

/-- Items in turn pass the check of the overlaps exactly if all of them fit. -/
theorem Alternates.checkOverlaps_eq_ok_iff {segments : List (Segment Document)}
    {transitions : List (Transition Document)} (halt : Alternates items segments transitions)
    (hitems : ∀ item ∈ items, item.IsMade) :
    checkOverlaps 0 segments transitions = .ok () ↔ AllFitOrNan items := by
  rw [checkOverlaps_eq_ok_iff_exceeds]
  constructor
  · intro h index before t after x d y hmeeting hx hd hy
    obtain ⟨hbefore, ht, hafter⟩ := halt.meeting_iff.mp hmeeting
    exact (exceeds_eq_false_iff hx hd hy).mp (h index before t after hbefore ht hafter)
  · intro h index before t after hbefore ht hafter
    have hmeeting := halt.meeting_iff.mpr ⟨hbefore, ht, hafter⟩
    -- Lengths of items as they are made are numbers, so that no comparison of them can fail.
    obtain ⟨x, hx, -⟩ :=
      Item.isMade_segment_iff.mp (hitems _ (List.mem_of_getElem? hmeeting.before))
    obtain ⟨d, hd, -⟩ :=
      Item.isMade_transition_iff.mp (hitems _ (List.mem_of_getElem? hmeeting.transition))
    obtain ⟨y, hy, -⟩ :=
      Item.isMade_segment_iff.mp (hitems _ (List.mem_of_getElem? hmeeting.after))
    exact (exceeds_eq_false_iff hx hd hy).mpr (h index before t after x d y hmeeting hx hd hy)

variable [Spring.Animated Document] {fps name : Document}

/-- A timeline is made of items that pass every check, at a rate that does. -/
theorem checks_of_build (hitems : ∀ item ∈ items, item.IsMade) {t : Timeline Document}
    (h : build items fps name = .ok t) :
    fps.PositiveOrNan ∧ items.length % 2 = 1 ∧ InPlace items ∧ AllFitOrNan items := by
  obtain ⟨hfps, halt, hcheck, -⟩ := steps_of_build h
  exact ⟨Document.le_zero_eq_false_iff.mp hfps, halt.length_items, halt.inPlace,
    (halt.checkOverlaps_eq_ok_iff hitems).mp hcheck⟩

/-- Items that pass every check are not rejected; what remains to be done is counting frames. -/
theorem rejectsNothing_build (hitems : ∀ item ∈ items, item.IsMade) (hfps : fps.PositiveOrNan)
    (hodd : items.length % 2 = 1) (hplaces : InPlace items) (hfit : AllFitOrNan items) :
    RejectsNothing (build items fps name) := by
  obtain ⟨segments, transitions, halt⟩ := exists_alternates hplaces hodd
  have hcheck := (halt.checkOverlaps_eq_ok_iff hitems).mpr hfit
  unfold build
  rw [Document.le_zero_eq_false_iff.mpr hfps, ok_bind, if_neg Bool.false_ne_true,
    split_eq_ok_iff.mpr halt]
  simp only [ok_bind, hcheck]
  refine (rejectsNothing_startsFrom _ _ _).bind fun starts => ?_
  exact (rejectsNothing_endsOf starts segments).bind fun ends => .ok _

end Items

end Timeline

/-- Everything that is made of numbers is in range but for what is no number: springs have a
positive mass, a positive stiffness and a damping that is not negative, segments last longer than
nothing and transitions not less than nothing, breakpoints never decrease, rates are positive and no
transition is longer than one of its neighbours. Nothing else keeps springs, segments and
transitions from being made, and nothing else is rejected of a timeline. -/
theorem accepted_in_range_or_nan [Spring.Animated Document] :
    (∀ (mass damping stiffness clamping : Document) (c : Spring.Config Document),
      Spring.Config.build mass damping stiffness clamping = .ok c ↔
        c = ⟨mass, damping, stiffness, clamping⟩ ∧ mass.PositiveOrNan ∧
          stiffness.PositiveOrNan ∧ damping.NonnegOrNan) ∧
    (∀ (length name : Document) (scene : Document → Except Fault (Snapshot Document))
      (s : Segment Document), Segment.build length scene name = .ok s ↔
        length.PositiveOrNan ∧ s = { length, scene, name }) ∧
    (∀ (length : Document) (presentation : Choice Presentation)
      (easing : Document → Except Fault Document) (spring : Option (Spring.Config Document))
      (t : Transition Document), Transition.build length presentation easing spring = .ok t ↔
        length.NonnegOrNan ∧ t = { length, presentation, easing, spring }) ∧
    (∀ (bs vs : List Document) (xs : List Number) (before after : Choice Extrapolation)
      (easing : Option (Document → Except Fault Document)) (c : Curve Document),
      bs.map Document.number? = xs.map some →
      (Curve.build bs vs before after easing = .ok c ↔
        bs.length = vs.length ∧ 2 ≤ bs.length ∧ Curve.NondecreasingOrNan xs ∧
          before = .known c.before ∧ after = .known c.after ∧ c.breakpoints = bs ∧ c.values = vs ∧
          c.easing = easing)) ∧
    ∀ (items : List (Item Document)) (fps name : Document), (∀ item ∈ items, item.IsMade) →
      (∀ t, Timeline.build items fps name = .ok t →
        fps.PositiveOrNan ∧ items.length % 2 = 1 ∧ Timeline.InPlace items ∧
          Timeline.AllFitOrNan items) ∧
      (fps.PositiveOrNan → items.length % 2 = 1 → Timeline.InPlace items →
        Timeline.AllFitOrNan items → RejectsNothing (Timeline.build items fps name)) :=
  ⟨fun _ _ _ _ _ => Spring.Config.build_eq_ok_iff_ranges,
    fun _ _ _ _ => Segment.build_eq_ok_iff_range,
    fun _ _ _ _ _ => Transition.build_eq_ok_iff_range,
    fun _ _ _ _ _ _ _ hnumbers => Curve.build_eq_ok_iff_nondecreasing hnumbers,
    fun _ _ _ hitems => ⟨fun _ ht => Timeline.checks_of_build hitems ht,
      Timeline.rejectsNothing_build hitems⟩⟩

/-- What is no number, as a value. -/
def Document.nan : Document := .double Double.nan

theorem isNan_nan : (Number.double Double.nan).IsNan := rfl

/-- Breakpoints that fall across what is no number. -/
def Curve.interrupted : List Document := [.int 5, .nan, .int 1]

/-- A transition that is longer than the segment behind it and stands behind a length that is no
number. -/
def Timeline.unmeasured : List (Item Document) :=
  [.segment { counting 3 "endless" with length := .nan }, .transition (blend 10),
    .segment (counting 3 "short")]

theorem Curve.exists_build_interrupted : ∃ c, build interrupted [.int 0, .int 0, .int 0]
    (.known .clamp) (.known .clamp) none = .ok c := ⟨_, rfl⟩

theorem Timeline.exists_build_unmeasured :
    ∃ t, build unmeasured (.int 30) (.text "") = .ok t := ⟨_, rfl⟩

theorem Timeline.isMade_unmeasured : ∀ item ∈ unmeasured, item.IsMade := by
  have hten : (Number.int 0).le (.int 10) = true := by decide
  have hthree : (Number.int 0).lt (.int 3) = true := by decide
  simp only [unmeasured, List.forall_mem_cons, Item.isMade_segment_iff, Item.isMade_transition_iff]
  exact ⟨⟨_, rfl, .inl isNan_nan⟩, ⟨_, rfl, .inr hten⟩, ⟨_, rfl, .inr hthree⟩, by simp⟩

theorem accepted_in_range_or_nan_unmeasured :
    Curve.interrupted.map Document.number? = [.int 5, .double Double.nan, .int 1].map some ∧
      Curve.NondecreasingOrNan [.int 5, .double Double.nan, .int 1] ∧
      (∀ item ∈ Timeline.unmeasured, item.IsMade) ∧ Timeline.AllFitOrNan Timeline.unmeasured := by
  obtain ⟨-, -, -, hcurves, htimelines⟩ := accepted_in_range_or_nan
  obtain ⟨c, hc⟩ := Curve.exists_build_interrupted
  obtain ⟨t, ht⟩ := Timeline.exists_build_unmeasured
  have hnumbers : Curve.interrupted.map Document.number? =
      [.int 5, .double Double.nan, .int 1].map some := rfl
  obtain ⟨-, -, hordered, -⟩ := (hcurves _ _ _ _ _ _ _ hnumbers).mp hc
  obtain ⟨haccepted, -⟩ := htimelines _ (.int 30) (.text "") Timeline.isMade_unmeasured
  obtain ⟨-, -, -, hfit⟩ := haccepted t ht
  exact ⟨hnumbers, hordered, Timeline.isMade_unmeasured, hfit⟩

/-- What is no number is accepted as a mass, a length, a breakpoint and a rate, though nothing is
below it or at most it, and behind it a transition of ten frames into three. -/
theorem nan_accepted_out_of_range :
    (∃ c : Spring.Config Document,
      Spring.Config.build .nan (.int 10) (.int 100) (.flag false) = .ok c) ∧
    (∃ s : Segment Document,
      Segment.build .nan (fun frame => .ok (.number frame)) (.text "") = .ok s) ∧
    (∃ t : Transition Document,
      Transition.build .nan (.known .crossfade) Easing.linear.apply none = .ok t) ∧
    (∃ c : Curve Document, Curve.build Curve.interrupted [.int 0, .int 0, .int 0]
      (.known .clamp) (.known .clamp) none = .ok c) ∧
    (∃ t : Timeline Document,
      Timeline.build [.segment (Timeline.counting 3 "short")] .nan (.text "") = .ok t) ∧
    (∃ t, Timeline.build Timeline.unmeasured (.int 30) (.text "") = .ok t) ∧
    (∀ n : Int, (Number.int n).le (.double Double.nan) = false ∧
      (Number.int n).lt (.double Double.nan) = false) ∧
    (Number.int 10).le (.int 3) = false := by
  refine ⟨⟨_, rfl⟩, ⟨_, rfl⟩, ⟨_, rfl⟩, Curve.exists_build_interrupted, ⟨_, rfl⟩,
    Timeline.exists_build_unmeasured, fun n => Number.unordered (.inr isNan_nan), by decide⟩

end Showreel
