import Showreel.Proofs.Effect
import Showreel.Proofs.Number.Quotient
import Showreel.Proofs.Timeline.Shown

/-!
# Windows and layers

Which segments are to be seen and which transitions have an effect is decided apart: the one from
starts and ends, the other from how far the frame is into a window. The two agree. A layer comes in
exactly while the layer below it is there and goes out exactly while the layer above it is there, so
a transition is only ever asked for its progress at an offset inside its window.
-/

namespace Showreel.Timeline

open Arith (ofInt)

variable {α : Type} [Arith α]

/-- The window of a transition at a frame that need not lie in it. -/
def windowAt (t : Timeline α) (j : Nat) (frame : α) : Except Fault (Window α) := do
  let transition ← entryAt t.transitions j
  let drive ← entryAt t.drives j
  let offset ← Arith.sub frame (← entryAt t.starts (j + 1))
  return { transition, drive, offset }

/-- The offset lies inside the window, which therefore is not empty. -/
def Window.IsInside (w : Window α) : Prop :=
  ∃ o d : Int, w.offset = ofInt o ∧ w.transition.length = ofInt d ∧ 0 ≤ o ∧ o < d

/-- The effects of a transition at a frame, on the layer that goes out and on the one that comes
in. -/
def crossing (t : Timeline α) (j : Nat) (frame : α) :
    Except Fault (LayerEffect α × LayerEffect α) := do
  (← t.windowAt j frame).effects

/-- The windows that are asked for the effect on a segment's layer. -/
def Sampled (t : Timeline α) (i : Nat) (frame : α) (w : Window α) : Prop :=
  t.incomingWindow i frame = .ok (some w) ∨ t.outgoingWindow i frame = .ok (some w)

theorem effectAt_of_windows {t : Timeline α} {i : Nat} {frame : α}
    {incoming outgoing : Option (Window α)} (hin : t.incomingWindow i frame = .ok incoming)
    (hout : t.outgoingWindow i frame = .ok outgoing) :
    t.effectAt i frame =
      (incoming.elim (.ok LayerEffect.full) fun w =>
        w.effects >>= fun e => LayerEffect.full.combine e.2) >>= fun entered =>
      outgoing.elim (.ok entered) fun w => w.effects >>= fun e => entered.combine e.1 := by
  unfold effectAt
  rw [hin, ok_bind]
  cases incoming <;> cases outgoing <;> simp [hout]

/-- The effect on a segment's layer as the other layers of the frame tell it: the layer comes in if
the one below it is there and goes out if the one above it is there. -/
def effectAmong (t : Timeline α) (active : List Nat) (i : Nat) (frame : α) :
    Except Fault (LayerEffect α) := do
  let entered ←
    if 0 < i ∧ i - 1 ∈ active then do LayerEffect.full.combine (← t.crossing (i - 1) frame).2
    else .ok LayerEffect.full
  if i + 1 ∈ active then do entered.combine (← t.crossing i frame).1 else .ok entered

/-- The effect of coming in alone. -/
def enteredAmong (t : Timeline α) (active : List Nat) (i : Nat) (frame : α) :
    Except Fault (LayerEffect α) :=
  if 0 < i ∧ i - 1 ∈ active then do LayerEffect.full.combine (← t.crossing (i - 1) frame).2
  else .ok LayerEffect.full

theorem effectAmong_eq (t : Timeline α) (active : List Nat) (i : Nat) (frame : α) :
    t.effectAmong active i frame = t.enteredAmong active i frame >>= fun entered =>
      if i + 1 ∈ active then t.crossing i frame >>= fun e => entered.combine e.1
      else .ok entered := by
  unfold effectAmong enteredAmong
  by_cases hbelow : 0 < i ∧ i - 1 ∈ active
  · rw [if_pos hbelow, if_pos hbelow, bind_assoc]
  · rw [if_neg hbelow, if_neg hbelow]

section Follows

variable [Arith.Whole α] [Spring.Animated α] {t : Timeline α} {l : Layout}

omit [Arith.Whole α] [Spring.Animated α] in
theorem Follows.exists_transition (h : t.Follows l) {j : Nat} (hj : j + 1 < l.count) :
    ∃ tr, t.transitions[j]? = some tr ∧ tr.length = ofInt (l.overlap j) := by
  have hlength := congrArg (·[j]?) h.transitions
  have hoverlaps : j < l.overlaps.length := by
    rw [l.count_eq_succ] at hj
    exact Nat.lt_of_succ_lt_succ hj
  rw [List.getElem?_map, List.getElem?_map, List.getElem?_eq_getElem hoverlaps] at hlength
  obtain ⟨tr, htr, heq⟩ := Option.map_eq_some_iff.mp hlength
  refine ⟨tr, htr, ?_⟩
  rw [heq, Layout.overlap, List.getD_eq_getElem _ _ hoverlaps]

omit [Arith.Whole α] [Spring.Animated α] in
theorem Follows.exists_segment (h : t.Follows l) {i : Nat} (hi : i < l.count) :
    ∃ s, t.segments[i]? = some s ∧ s.length = ofInt (l.length i) := by
  have hlength := congrArg (·[i]?) h.segments
  rw [List.getElem?_map, List.getElem?_map, List.getElem?_eq_getElem (l := l.lengths) hi] at hlength
  obtain ⟨s, hs, heq⟩ := Option.map_eq_some_iff.mp hlength
  refine ⟨s, hs, ?_⟩
  rw [heq, Layout.length, List.getD_eq_getElem (l := l.lengths) _ hi]

omit [Arith.Whole α] [Spring.Animated α] in
theorem Follows.transitions_eq_none (h : t.Follows l) {j : Nat} (hj : l.count ≤ j + 1) :
    t.transitions[j]? = none := by
  have hlength := congrArg List.length h.transitions
  rw [List.length_map, List.length_map] at hlength
  rw [l.count_eq_succ] at hj
  exact List.getElem?_eq_none (by omega)

section Driven

variable (h : t.Follows l) (hdrives : t.drives = t.transitions.map fun tr => tr.drive t.fps)
  {c : Int} {i : Nat} (hi : i ∈ l.visible c)

include hdrives

omit [Arith.Whole α] in
theorem entryAt_drives {j : Nat} {tr : Transition α} (htr : t.transitions[j]? = some tr) :
    entryAt t.drives j = .ok (tr.drive t.fps) := by
  rw [entryAt_eq_ok_iff, hdrives, List.getElem?_map, htr]
  rfl

include h

theorem Follows.windowAt_eq {j : Nat} {tr : Transition α} (htr : t.transitions[j]? = some tr)
    (hj : j + 1 < l.count) (c : Int) :
    t.windowAt j (ofInt c) =
      .ok { transition := tr, drive := tr.drive t.fps, offset := ofInt (c - l.start (j + 1)) } := by
  rw [windowAt, entryAt_eq_ok_iff.mpr htr, ok_bind, entryAt_drives hdrives htr, ok_bind,
    h.entryAt_starts hj, ok_bind, Arith.Whole.sub_ofInt]
  rfl

/-- A segment that is to be seen comes in exactly while the one in front of it is to be seen too. -/
theorem Follows.incomingWindow_eq (hnext : i + 1 ∈ l.visible c) :
    t.incomingWindow (i + 1) (ofInt c) =
      if i ∈ l.visible c then some <$> t.windowAt i (ofInt c) else .ok none := by
  have hcount := l.lt_count_of_mem_visible hnext
  obtain ⟨tr, htr, hlength⟩ := h.exists_transition hcount
  rw [h.windowAt_eq hdrives htr hcount, incomingWindow, entryAt_eq_ok_iff.mpr htr, ok_bind,
    h.entryAt_starts hcount, ok_bind, Arith.Whole.sub_ofInt, ok_bind, hlength,
    Arith.Whole.lt_ofInt, ok_bind, entryAt_drives hdrives htr, ok_bind]
  have hiff := l.pred_visible_iff hnext
  by_cases hwindow : c - l.start (i + 1) < l.overlap i
  · rw [if_pos (decide_eq_true hwindow), if_pos (hiff.mpr hwindow)]
    rfl
  · rw [if_neg (by simpa using hwindow), if_neg (mt hiff.mp hwindow)]
    rfl

include hi

/-- The window between two segments that are both to be seen is one of the timeline's transitions,
and the frame lies inside it. -/
theorem Follows.windowAt_isInside (hnext : i + 1 ∈ l.visible c) :
    ∃ w, t.windowAt i (ofInt c) = .ok w ∧ w.IsInside ∧ w.transition ∈ t.transitions := by
  have hwindow := (l.succ_visible_iff hi).mp hnext
  have hcount := l.lt_count_of_mem_visible hnext
  obtain ⟨tr, htr, hlength⟩ := h.exists_transition hcount
  exact ⟨_, h.windowAt_eq hdrives htr hcount c, ⟨_, _, rfl, hlength, hwindow⟩,
    List.mem_of_getElem? htr⟩

/-- A segment that is to be seen goes out exactly while the one behind it is to be seen too. -/
theorem Follows.outgoingWindow_eq :
    t.outgoingWindow i (ofInt c) =
      if i + 1 ∈ l.visible c then some <$> t.windowAt i (ofInt c) else .ok none := by
  rcases Nat.lt_or_ge (i + 1) l.count with hcount | hcount
  · obtain ⟨tr, htr, hlength⟩ := h.exists_transition hcount
    rw [h.windowAt_eq hdrives htr hcount, outgoingWindow, htr]
    dsimp only
    rw [h.entryAt_starts hcount, ok_bind, Arith.Whole.sub_ofInt, ok_bind, hlength,
      Arith.between_ofInt, ok_bind, entryAt_drives hdrives htr, ok_bind]
    have hiff := l.succ_visible_iff hi
    by_cases hwindow : 0 ≤ c - l.start (i + 1) ∧ c - l.start (i + 1) < l.overlap i
    · rw [if_pos (decide_eq_true hwindow), if_pos (hiff.mpr hwindow)]
      rfl
    · rw [if_neg (by simpa using hwindow), if_neg (mt hiff.mp hwindow)]
      rfl
  · have hnext : i + 1 ∉ l.visible c := fun hnext =>
      hcount.not_gt (l.lt_count_of_mem_visible hnext)
    rw [if_neg hnext, outgoingWindow, h.transitions_eq_none hcount]
    rfl

theorem Follows.effectAt_eq :
    t.effectAt i (ofInt c) = t.effectAmong (l.visible c) i (ofInt c) := by
  have hout := h.outgoingWindow_eq hdrives hi
  unfold effectAt effectAmong crossing
  cases i with
  | zero =>
    have hin : t.incomingWindow 0 (ofInt c) = .ok none := rfl
    rw [hin, hout]
    by_cases hnext : 0 + 1 ∈ l.visible c
    · simp [hnext, map_eq_pure_bind]
    · simp [hnext]
  | succ i =>
    rw [hout, h.incomingWindow_eq hdrives hi]
    by_cases hprev : i ∈ l.visible c <;> by_cases hnext : i + 1 + 1 ∈ l.visible c
    · simp [hprev, hnext, map_eq_pure_bind]
    · simp [hprev, hnext, map_eq_pure_bind]
    · simp [hprev, hnext, map_eq_pure_bind]
    · simp [hprev, hnext]

theorem Follows.incomingWindow_iff :
    (∃ w, t.incomingWindow i (ofInt c) = .ok (some w)) ↔ 0 < i ∧ i - 1 ∈ l.visible c := by
  cases i with
  | zero =>
    have hin : t.incomingWindow 0 (ofInt c) = .ok none := rfl
    simp [hin]
  | succ i =>
    rw [h.incomingWindow_eq hdrives hi]
    by_cases hprev : i ∈ l.visible c
    · obtain ⟨w, hw, -⟩ := h.windowAt_isInside hdrives hprev hi
      simp [hprev, hw]
    · simp [hprev]

theorem Follows.outgoingWindow_iff :
    (∃ w, t.outgoingWindow i (ofInt c) = .ok (some w)) ↔ i + 1 ∈ l.visible c := by
  rw [h.outgoingWindow_eq hdrives hi]
  by_cases hnext : i + 1 ∈ l.visible c
  · obtain ⟨w, hw, -⟩ := h.windowAt_isInside hdrives hi hnext
    simp [hnext, hw]
  · simp [hnext]

theorem Follows.exists_windows :
    ∃ incoming outgoing, t.incomingWindow i (ofInt c) = .ok incoming ∧
      t.outgoingWindow i (ofInt c) = .ok outgoing := by
  obtain ⟨incoming, hin⟩ : ∃ incoming, t.incomingWindow i (ofInt c) = .ok incoming := by
    cases i with
    | zero => exact ⟨none, rfl⟩
    | succ i =>
      rw [h.incomingWindow_eq hdrives hi]
      by_cases hprev : i ∈ l.visible c
      · obtain ⟨w, hw, -⟩ := h.windowAt_isInside hdrives hprev hi
        exact ⟨some w, by rw [if_pos hprev, hw]; rfl⟩
      · exact ⟨none, if_neg hprev⟩
  refine ⟨incoming, ?_⟩
  rw [h.outgoingWindow_eq hdrives hi]
  by_cases hnext : i + 1 ∈ l.visible c
  · obtain ⟨w, hw, -⟩ := h.windowAt_isInside hdrives hi hnext
    exact ⟨some w, hin, by rw [if_pos hnext, hw]; rfl⟩
  · exact ⟨none, hin, if_neg hnext⟩

/-- An upper layer has its effect only if the transition below it has effects. -/
theorem Follows.exists_crossing_of_effectAt (hnext : i + 1 ∈ l.visible c)
    {effect : LayerEffect α} (heffect : t.effectAt (i + 1) (ofInt c) = .ok effect) :
    ∃ e, t.crossing i (ofInt c) = .ok e := by
  rw [h.effectAt_eq hdrives hnext, effectAmong, if_pos ⟨Nat.succ_pos i, hi⟩] at heffect
  obtain ⟨e, he, -⟩ := bind_eq_ok_iff.mp heffect
  exact ⟨e, he⟩

/-- A transition is asked for its progress only inside its window. -/
theorem Follows.isInside_of_sampled {w : Window α} (hw : t.Sampled i (ofInt c) w) :
    w.IsInside ∧ w.transition ∈ t.transitions := by
  have hpair : ∀ {j}, j ∈ l.visible c → j + 1 ∈ l.visible c →
      some <$> t.windowAt j (ofInt c) = .ok (some w) →
      w.IsInside ∧ w.transition ∈ t.transitions := by
    intro j hj hnext hwindow
    obtain ⟨w', hw', hinside⟩ := h.windowAt_isInside hdrives hj hnext
    rw [hw'] at hwindow
    cases hwindow
    exact hinside
  rcases hw with hw | hw
  · obtain ⟨hpos, hprev⟩ := (h.incomingWindow_iff hdrives hi).mp ⟨w, hw⟩
    obtain ⟨i, rfl⟩ : ∃ j, i = j + 1 := ⟨i - 1, by omega⟩
    rw [Nat.add_sub_cancel] at hprev
    rw [h.incomingWindow_eq hdrives hi, if_pos hprev] at hw
    exact hpair hprev hi hw
  · have hnext := (h.outgoingWindow_iff hdrives hi).mp ⟨w, hw⟩
    rw [h.outgoingWindow_eq hdrives hi, if_pos hnext] at hw
    exact hpair hi hnext hw

end Driven

end Follows

/-! ## Windows of documents -/

/-- The way through a window is never divided by zero. -/
theorem Window.IsInside.exists_div {w : Window Document} (h : w.IsInside) :
    ∃ x, Arith.div w.offset w.transition.length = .ok (.double x) := by
  obtain ⟨o, d, ho, hd, hnonneg, hlt⟩ := h
  rw [ho, hd]
  exact Document.exists_div_int hnonneg hlt

theorem Window.IsInside.stretched_eq [Arith.Whole α] {w : Window α} (h : w.IsInside) (elapsed : α)
    (natural : Thunk (Except Fault Nat)) :
    Spring.stretched elapsed natural (some w.transition.length) = (do
      Arith.mul elapsed (← Arith.div (ofInt (← natural.get)) w.transition.length)) := by
  obtain ⟨o, d, -, hd, hnonneg, hlt⟩ := h
  have hpos : ¬ d ≤ 0 := by omega
  simp [Spring.stretched, hd, hpos]

/-- A known presentation yields its effects as soon as the progress is there. -/
theorem Window.exists_effects {w : Window Document} {p : Presentation}
    (hp : w.transition.presentation = .known p) {x : Document}
    (hx : w.drive.progress w.transition.length w.offset = .ok x) :
    ∃ outgoing incoming, w.effects = .ok (outgoing, incoming) ∧ outgoing.IsDouble ∧
      incoming.IsDouble := by
  obtain ⟨y, rfl⟩ := w.drive.progress_eq_double hx
  obtain ⟨outgoing, incoming, heffects, hdouble⟩ := p.exists_effects y
  refine ⟨outgoing, incoming, ?_, hdouble⟩
  rw [Window.effects, hx, ok_bind, hp]
  exact heffects

/-- Where all presentations are known, a layer has its effect as soon as the progress of the
transitions in whose windows it lies is there. -/
theorem exists_effectAt {t : Timeline Document} {i : Nat} {frame : Document}
    (hknown : ∀ tr ∈ t.transitions, ∃ p, tr.presentation = .known p)
    {incoming outgoing : Option (Window Document)} (hin : t.incomingWindow i frame = .ok incoming)
    (hout : t.outgoingWindow i frame = .ok outgoing)
    (hmem : ∀ w, t.Sampled i frame w → w.transition ∈ t.transitions)
    (hprogress : ∀ w, t.Sampled i frame w →
      ∃ x, w.drive.progress w.transition.length w.offset = .ok x) :
    ∃ effect, t.effectAt i frame = .ok effect := by
  have heffects : ∀ w, t.Sampled i frame w → ∃ below above, w.effects = .ok (below, above) ∧
      below.IsDouble ∧ above.IsDouble := by
    intro w hw
    obtain ⟨p, hp⟩ := hknown _ (hmem w hw)
    obtain ⟨x, hx⟩ := hprogress w hw
    exact Window.exists_effects hp hx
  obtain ⟨entered, hentered, hdouble⟩ : ∃ entered, incoming.elim (.ok LayerEffect.full)
      (fun w => w.effects >>= fun e => LayerEffect.full.combine e.2) = .ok entered ∧
      entered.IsDouble := by
    cases incoming with
    | none => exact ⟨_, rfl, LayerEffect.full_isDouble⟩
    | some w =>
      obtain ⟨below, above, heq, -, habove⟩ := heffects w (.inl hin)
      obtain ⟨entered, hentered, hdouble⟩ := LayerEffect.full_isDouble.exists_combine habove
      exact ⟨entered, by rw [Option.elim_some, heq, ok_bind, hentered], hdouble⟩
  rw [effectAt_of_windows hin hout, hentered, ok_bind]
  cases outgoing with
  | none => exact ⟨_, rfl⟩
  | some w =>
    obtain ⟨below, above, heq, hbelow, -⟩ := heffects w (.inr hout)
    obtain ⟨left, hleft, -⟩ := hdouble.exists_combine hbelow
    exact ⟨left, by rw [Option.elim_some, heq, ok_bind, hleft]⟩

theorem crossing_isDouble {t : Timeline Document} {j : Nat} {frame : Document}
    {e : LayerEffect Document × LayerEffect Document} (h : t.crossing j frame = .ok e) :
    e.1.IsDouble ∧ e.2.IsDouble := by
  obtain ⟨w, -, heffects⟩ := bind_eq_ok_iff.mp h
  obtain ⟨x, hx, hpresented⟩ := bind_eq_ok_iff.mp heffects
  cases hp : w.transition.presentation with
  | unknown label =>
    rw [hp] at hpresented
    exact absurd hpresented (bind_ne_ok fun _ => reject_ne_ok)
  | known p =>
    obtain ⟨outgoing, incoming, heq, hdouble⟩ := Window.exists_effects hp hx
    cases heffects.symm.trans heq
    exact hdouble

/-- Every transition between two segments to be seen has effects, and every scene yields a state. -/
structure Composable (t : Timeline Document) (l : Layout) (c : Int) : Prop where
  crossings : ∀ j, j ∈ l.visible c → j + 1 ∈ l.visible c → ∃ e, t.crossing j (.int c) = .ok e
  scenes : ∀ i ∈ l.visible c, ∃ s state, t.segments[i]? = some s ∧
    s.scene (.int (c - l.start i)) = .ok state

section Composable

variable [Spring.Animated Document] {t : Timeline Document} {l : Layout} (h : t.Follows l)
  (hdrives : t.drives = t.transitions.map fun tr => tr.drive t.fps)

include h hdrives

/-- A layer has its effect exactly if the transitions to the layers below and above it have
theirs. -/
theorem Follows.exists_effectAt_iff {c : Int} {i : Nat} (hi : i ∈ l.visible c) :
    (∃ effect, t.effectAt i (.int c) = .ok effect) ↔
      (∀ j, j + 1 = i → j ∈ l.visible c → ∃ e, t.crossing j (.int c) = .ok e) ∧
        (i + 1 ∈ l.visible c → ∃ e, t.crossing i (.int c) = .ok e) := by
  have heq : t.effectAt i (.int c) = t.effectAmong (l.visible c) i (.int c) :=
    h.effectAt_eq hdrives hi
  constructor
  · rintro ⟨effect, heffect⟩
    constructor
    · rintro j rfl hj
      exact h.exists_crossing_of_effectAt hdrives hj hi heffect
    · intro hnext
      rw [heq, effectAmong_eq] at heffect
      obtain ⟨entered, -, hleft⟩ := bind_eq_ok_iff.mp heffect
      rw [if_pos hnext] at hleft
      obtain ⟨e, he, -⟩ := bind_eq_ok_iff.mp hleft
      exact ⟨e, he⟩
  · rintro ⟨hbelow, habove⟩
    obtain ⟨entered, hentered, hdouble⟩ : ∃ entered,
        t.enteredAmong (l.visible c) i (.int c) = .ok entered ∧ entered.IsDouble := by
      unfold enteredAmong
      split
      case isFalse => exact ⟨_, rfl, LayerEffect.full_isDouble⟩
      case isTrue hprev =>
        obtain ⟨e, he⟩ := hbelow (i - 1) (Nat.sub_add_cancel hprev.1) hprev.2
        rw [he, ok_bind]
        exact LayerEffect.full_isDouble.exists_combine (crossing_isDouble he).2
    rw [heq, effectAmong_eq, hentered, ok_bind]
    split
    case isFalse => exact ⟨entered, rfl⟩
    case isTrue hnext =>
      obtain ⟨e, he⟩ := habove hnext
      obtain ⟨effect, heffect, -⟩ := hdouble.exists_combine (crossing_isDouble he).1
      exact ⟨effect, by rw [he, ok_bind, heffect]⟩

/-- A frame is composed exactly if nothing that it asks for fails. -/
theorem Follows.exists_frameAt_iff_composable (f : Int) :
    (∃ frame, t.frameAt (.int f) = .ok frame) ↔ t.Composable l (l.clamp f) := by
  have hiff := h.exists_frameAt_iff f
  constructor
  · intro hframe
    have hlayers := hiff.mp hframe
    refine ⟨fun j hj hnext => ?_, fun i hi => (hlayers i hi).2⟩
    exact ((h.exists_effectAt_iff hdrives hj).mp (hlayers j hj).1).2 hnext
  · intro hcomposable
    refine hiff.mpr fun i hi => ⟨(h.exists_effectAt_iff hdrives hi).mpr ⟨?_, ?_⟩,
      hcomposable.scenes i hi⟩
    · rintro j rfl hj
      exact hcomposable.crossings j hj hi
    · exact hcomposable.crossings i hi

end Composable

/-! ## All of a timeline -/

/-- At every frame a layer comes in exactly if the layer below it is there and goes out exactly if
the layer above it is there; one that is alone is drawn as it is. Progress is asked for only inside
windows, so no length of a window is divided by or stretched to that is not positive. -/
theorem effects_agree_with_layers [Spring.Animated Document] {items : List (Item Document)}
    (hitems : ∀ item ∈ items, item.IsWhole) {fps name : Document} {t : Timeline Document}
    (hbuild : build items fps name = .ok t)
    (hknown : ∀ tr, .transition tr ∈ items → ∃ p, tr.presentation = .known p) (f : Int) :
    ∃ (c : Int) (active : List Nat), t.clampFrame (.int f) = .ok (.int c) ∧
      t.activeSegments (.int f) = .ok active ∧
      (∀ frame, t.frameAt (.int f) = .ok frame → List.Forall₂ (fun i layer =>
        layer.index = i ∧ t.effectAt i (.int c) = .ok layer.effect) active frame.layers) ∧
      ∀ i ∈ active,
        t.effectAt i (.int c) = t.effectAmong active i (.int c) ∧
        ((∃ w, t.incomingWindow i (.int c) = .ok (some w)) ↔ 0 < i ∧ i - 1 ∈ active) ∧
        ((∃ w, t.outgoingWindow i (.int c) = .ok (some w)) ↔ i + 1 ∈ active) ∧
        (active.head? = some i → t.incomingWindow i (.int c) = .ok none) ∧
        (active.getLast? = some i → t.outgoingWindow i (.int c) = .ok none) ∧
        (active = [i] → t.effectAt i (.int c) = .ok
          { opacity := .double 1.0, offsetX := .double 0.0, offsetY := .double 0.0
            scale := .double 1.0 }) ∧
        (∀ w, t.Sampled i (.int c) w → w.IsInside ∧
          (∃ x, Arith.div w.offset w.transition.length = .ok (.double x)) ∧
          ∀ elapsed natural, Spring.stretched elapsed natural (some w.transition.length) = (do
            Arith.mul elapsed (← Arith.div (.int (← natural.get)) w.transition.length))) ∧
        ((∀ w, t.Sampled i (.int c) w →
            ∃ x, w.drive.progress w.transition.length w.offset = .ok x) →
          ∃ effect, t.effectAt i (.int c) = .ok effect) := by
  obtain ⟨l, h, -, halt, rfl, -, hdrives⟩ := follows_of_build hitems hbuild
  refine ⟨l.clamp f, l.visible (l.clamp f), h.clampFrame_eq f, h.activeSegments_eq f,
    fun frame hframe => ?_, fun i hi => ?_⟩
  · refine (h.frameAt_eq_ok_iff.mp hframe).2.imp fun i layer hlayer => ?_
    obtain ⟨s, -, hindex, -, -, heffect, -⟩ := h.layerAt_eq_ok_iff.mp hlayer
    exact ⟨hindex, heffect⟩
  · have hin := h.incomingWindow_iff hdrives hi
    have hout := h.outgoingWindow_iff hdrives hi
    have hsampled := fun w => h.isInside_of_sampled (w := w) hdrives hi
    obtain ⟨incoming, outgoing, hincoming, houtgoing⟩ := h.exists_windows hdrives hi
    refine ⟨h.effectAt_eq hdrives hi, hin, hout, fun hbottom => ?_, fun htop => ?_,
      fun halone => ?_, fun w hw => ?_, fun hprogress => ?_⟩
    · cases incoming with
      | none => exact hincoming
      | some w =>
        obtain ⟨hpos, hprev⟩ := hin.mp ⟨w, hincoming⟩
        have hle := l.le_of_head?_visible hbottom hprev
        omega
    · cases outgoing with
      | none => exact houtgoing
      | some w =>
        have hle := l.le_of_getLast?_visible htop (hout.mp ⟨w, houtgoing⟩)
        omega
    · have hprev : ¬ (0 < i ∧ i - 1 ∈ l.visible (l.clamp f)) := by
        rw [halone, List.mem_singleton]
        omega
      have hnext : i + 1 ∉ l.visible (l.clamp f) := by
        rw [halone, List.mem_singleton]
        omega
      refine (h.effectAt_eq hdrives hi).trans ?_
      rw [effectAmong, if_neg hprev, ok_bind]
      exact if_neg hnext
    · obtain ⟨hinside, -⟩ := hsampled w hw
      exact ⟨hinside, hinside.exists_div, hinside.stretched_eq⟩
    · exact exists_effectAt (fun tr htr => hknown tr (halt.transition_mem htr)) hincoming houtgoing
        (fun w hw => (hsampled w hw).2) hprogress

/-- At its first frame the short segment comes in and goes out at once. -/
theorem effects_agree_with_layers_shortMiddle :
    (∀ item ∈ shortMiddle, item.IsWhole) ∧
      (∀ tr, .transition tr ∈ shortMiddle → ∃ p, tr.presentation = .known p) ∧
      ∃ t, build shortMiddle (.int 30) (.text "cards") = .ok t ∧
        t.activeSegments (.int 3) = .ok [0, 1, 2] ∧
        (∃ w, t.incomingWindow 1 (.int 3) = .ok (some w) ∧ w.IsInside) ∧
        ∃ w, t.outgoingWindow 1 (.int 3) = .ok (some w) ∧ w.IsInside := by
  have hknown : ∀ tr, .transition tr ∈ shortMiddle → ∃ p, tr.presentation = .known p := by
    intro tr htr
    simp only [shortMiddle, List.mem_cons, Item.transition.injEq, reduceCtorEq, false_or,
      List.not_mem_nil, or_false] at htr
    rcases htr with rfl | rfl
    · exact ⟨.crossfade, rfl⟩
    · exact ⟨.crossfade, rfl⟩
  obtain ⟨t, hbuild, hclamp, hactive⟩ : ∃ t, build shortMiddle (.int 30) (.text "cards") = .ok t ∧
      t.clampFrame (.int 3) = .ok (.int 3) ∧ t.activeSegments (.int 3) = .ok [0, 1, 2] :=
    ⟨_, rfl, rfl, rfl⟩
  obtain ⟨c, active, hc, hactive', -, hlayers⟩ :=
    effects_agree_with_layers shortMiddle_isWhole hbuild hknown 3
  cases hc.symm.trans hclamp
  cases hactive'.symm.trans hactive
  obtain ⟨-, hin, hout, -, -, -, hinside, -⟩ := hlayers 1 (by simp)
  obtain ⟨w, hw⟩ := hin.mpr (by simp)
  obtain ⟨w', hw'⟩ := hout.mpr (by simp)
  exact ⟨shortMiddle_isWhole, hknown, t, hbuild, hactive, ⟨w, hw, (hinside w (.inl hw)).1⟩, w', hw',
    (hinside w' (.inr hw')).1⟩

end Showreel.Timeline
