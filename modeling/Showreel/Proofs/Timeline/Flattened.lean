import Showreel.Proofs.Timeline.Nested

/-!
# Nesting agrees with flattening

A timeline shows a nested one as the state of a single layer. Written flat, both last equally long
and show the same segments at the same frames of their own: each layer of the inner frame takes the
place of the nested layer, in order.
-/

namespace Showreel

open Arith (ofInt)

theorem forall₂_append_left {α β : Type} {R : α → β → Prop} {xs ys : List α} {zs : List β}
    (h : List.Forall₂ R (xs ++ ys) zs) :
    ∃ front back, zs = front ++ back ∧ List.Forall₂ R xs front ∧ List.Forall₂ R ys back := by
  induction xs generalizing zs with
  | nil => exact ⟨[], zs, rfl, .nil, h⟩
  | cons x xs ih =>
    cases h with
    | cons hx hrest =>
      obtain ⟨front, back, rfl, hfront, hback⟩ := ih hrest
      exact ⟨_ :: front, back, rfl, .cons hx hfront, hback⟩

/-- What two lists are to a third one they are to each other. -/
theorem forall₂_of_common {α β γ : Type} {R : α → β → Prop} {S : α → γ → Prop}
    {T : β → γ → Prop} {xs : List α} {ys : List β} {zs : List γ} (hys : List.Forall₂ R xs ys)
    (hzs : List.Forall₂ S xs zs) (h : ∀ x ∈ xs, ∀ y z, R x y → S x z → T y z) :
    List.Forall₂ T ys zs := by
  induction hys generalizing zs with
  | nil =>
    cases hzs
    exact .nil
  | cons hy _ ih =>
    cases hzs with
    | cons hz hzs =>
      rw [List.forall_mem_cons] at h
      exact .cons (h.1 _ _ hy hz) (ih hzs h.2)

namespace Timeline

section Layers

variable {α : Type} [Arith α]

/-- A layer with its segment. -/
def placed (t : Timeline α) (layer : Layer α) : Option (Segment α) × Layer α :=
  (t.segments[layer.index]?, layer)

/-- A layer with its segment; in place of the nested one, at position `p`, the layers of the inner
timeline at the frame that the nested one has reached. -/
def unfolded (t inner : Timeline α) (p : Nat) (layer : Layer α) :
    Except Fault (List (Option (Segment α) × Layer α)) :=
  if layer.index = p then do return (← inner.frameAt layer.localFrame).layers.map inner.placed
  else .ok [t.placed layer]

/-- What is shown of the same segment, at the same frame of it. -/
structure Alike (shown shown' : Option (Segment α) × Layer α) : Prop where
  segment : shown.1 = shown'.1
  localFrame : shown.2.localFrame = shown'.2.localFrame
  state : shown.2.state = shown'.2.state

variable [Arith.Whole α]

theorem Follows.alike {t u : Timeline α} {l m : Layout} (ht : t.Follows l) (hu : u.Follows m)
    {i j : Nat} (hsegment : u.segments[j]? = t.segments[i]?) {c d : Int}
    (hoffset : d - m.start j = c - l.start i) {layer layer' : Layer α}
    (hlayer : t.layerAt (ofInt c) i = .ok layer) (hlayer' : u.layerAt (ofInt d) j = .ok layer') :
    Alike (t.placed layer) (u.placed layer') := by
  obtain ⟨s, hs, rfl, -, hlocal, -, hstate⟩ := ht.layerAt_eq_ok_iff.mp hlayer
  obtain ⟨s', hs', rfl, -, hlocal', -, hstate'⟩ := hu.layerAt_eq_ok_iff.mp hlayer'
  obtain rfl : s' = s := Option.some.inj (hs'.symm.trans (hsegment.trans hs))
  rw [hoffset] at hlocal' hstate'
  exact ⟨hsegment.symm, hlocal.trans hlocal'.symm, Except.ok.inj (hstate.symm.trans hstate')⟩

namespace Nesting

variable [Spring.Animated α] {t inner u : Timeline α} {nest : Segment α} {l k m : Layout} {p : Nat}
  (h : Nesting t inner u nest l k m p) {c : Int}

include h

omit [Arith.Whole α] in
/-- Every frame at which the nested segment is to be seen lies inside the inner timeline. -/
theorem clamp_inner (hvisible : p ∈ l.visible c) :
    k.clamp (c - l.start p) = c - l.start p := by
  have hlasts := h.layouts.lasts
  rw [Layout.mem_visible, Layout.stop] at hvisible
  exact k.clamp_eq_self (by omega) (by omega)

/-- The nested layer shows the frame of the inner timeline that it has reached. -/
theorem exists_inside (hvisible : p ∈ l.visible c) {layer : Layer α}
    (hlayer : t.layerAt (ofInt c) p = .ok layer) :
    layer.localFrame = ofInt (c - l.start p) ∧ ∃ inside,
      inner.frameAt layer.localFrame = .ok inside ∧ layer.state = inside.snapshot ∧
      inside.globalFrame = layer.localFrame := by
  obtain ⟨s, hs, -, -, hlocal, -, hstate⟩ := h.outer_follows.layerAt_eq_ok_iff.mp hlayer
  obtain rfl : s = nest := Option.some.inj (hs.symm.trans h.nested)
  rw [h.scene, ← hlocal] at hstate
  obtain ⟨inside, hinside, hsnapshot⟩ := bind_eq_ok_iff.mp hstate
  refine ⟨hlocal, inside, hinside, (Except.ok.inj hsnapshot).symm, ?_⟩
  rw [hlocal] at hinside ⊢
  rw [(h.inner_follows.frameAt_eq_ok_iff.mp hinside).1, h.clamp_inner hvisible]

/-- The flat layers show what the layer shows, or what is shown inside it if it is the nested one,
and have the same effects if no outer transition overlaps the nested segment. -/
def StandFor (t inner u : Timeline α) (l : Layout) (p : Nat) (layer : Layer α)
    (flat : List (Layer α)) : Prop :=
  ∃ part, t.unfolded inner p layer = .ok part ∧
    List.Forall₂ (fun shown layer' => Alike shown (u.placed layer') ∧
      (l.IsCutOut p → layer'.effect = shown.2.effect)) part flat

theorem standFor_outer {i j : Nat} (hne : i ≠ p) (hsegment : u.segments[j]? = t.segments[i]?)
    (hstart : m.start j = l.start i) (heffects : u.effectAt j (ofInt c) = t.effectAt i (ofInt c))
    {layer layer' : Layer α} (hlayer : t.layerAt (ofInt c) i = .ok layer)
    (hlayer' : u.layerAt (ofInt c) j = .ok layer') :
    StandFor t inner u l p layer [layer'] := by
  obtain ⟨-, -, hindex, -, -, heffect, -⟩ := h.outer_follows.layerAt_eq_ok_iff.mp hlayer
  obtain ⟨-, -, -, -, -, heffect', -⟩ := h.flat_follows.layerAt_eq_ok_iff.mp hlayer'
  have hoffset : c - m.start j = c - l.start i := by rw [hstart]
  have hunfolded : t.unfolded inner p layer = .ok [t.placed layer] := by
    rw [unfolded, hindex, if_neg hne]
  refine ⟨_, hunfolded, .cons ⟨?_, fun _ => ?_⟩ .nil⟩
  · exact h.outer_follows.alike h.flat_follows hsegment hoffset hlayer hlayer'
  · rw [heffects] at heffect'
    exact Except.ok.inj (heffect'.symm.trans heffect)

theorem standFor_nested (hvisible : p ∈ l.visible c) {layer : Layer α}
    (hlayer : t.layerAt (ofInt c) p = .ok layer) {flat : List (Layer α)}
    (hflat : List.Forall₂ (fun j layer' => u.layerAt (ofInt c) (p + j) = .ok layer')
      (k.visible (c - l.start p)) flat) :
    StandFor t inner u l p layer flat := by
  obtain ⟨-, -, hindex, -, -, -, -⟩ := h.outer_follows.layerAt_eq_ok_iff.mp hlayer
  obtain ⟨hlocal, inside, hinside, -⟩ := h.exists_inside hvisible hlayer
  have hunfolded : t.unfolded inner p layer = .ok (inside.layers.map inner.placed) := by
    rw [unfolded, hindex, if_pos rfl, hinside]
    rfl
  rw [hlocal] at hinside
  have hlayers := (h.inner_follows.frameAt_eq_ok_iff.mp hinside).2
  rw [h.clamp_inner hvisible] at hlayers
  refine ⟨_, hunfolded, ?_⟩
  rw [List.forall₂_map_left_iff]
  refine forall₂_of_common hlayers hflat fun j hj within layer' hwithin hlayer' => ?_
  have hcount := k.lt_count_of_mem_visible hj
  obtain ⟨-, -, -, -, -, heffect, -⟩ := h.inner_follows.layerAt_eq_ok_iff.mp hwithin
  obtain ⟨-, -, -, -, -, heffect', -⟩ := h.flat_follows.layerAt_eq_ok_iff.mp hlayer'
  have hoffset : c - m.start (p + j) = c - l.start p - k.start j := by
    rw [h.layouts.start_inner hcount, Int.sub_sub]
  refine ⟨?_, fun hcut => ?_⟩
  · exact h.inner_follows.alike h.flat_follows (h.segments_inner hcount) hoffset hwithin hlayer'
  · rw [h.effectAt_inner hcut hj] at heffect'
    exact Except.ok.inj (heffect'.symm.trans heffect)

/-- The layers at the positions that stand in for a segment stand for its layer. -/
theorem standFor_of_standIns {i : Nat} (hvisible : i ∈ l.visible c) {layer : Layer α}
    (hlayer : t.layerAt (ofInt c) i = .ok layer) {flat : List (Layer α)}
    (hflat : List.Forall₂ (fun j layer' => u.layerAt (ofInt c) j = .ok layer')
      (k.standIns p (k.visible (c - l.start p)) i) flat) :
    StandFor t inner u l p layer flat := by
  unfold Layout.standIns at hflat
  split at hflat
  case isTrue hfront =>
    obtain ⟨layer', _, hlayer', hnil, rfl⟩ := List.forall₂_cons_left_iff.mp hflat
    cases hnil
    exact h.standFor_outer hfront.ne (h.segments_front hfront) (h.layouts.start_front hfront.le)
      (h.effectAt_front hfront hvisible) hlayer hlayer'
  case isFalse hfront =>
    split at hflat
    case isTrue hnested =>
      subst hnested
      exact h.standFor_nested hvisible hlayer (List.forall₂_map_left_iff.mp hflat)
    case isFalse hne =>
      have hback : p < i := by omega
      obtain ⟨layer', _, hlayer', hnil, rfl⟩ := List.forall₂_cons_left_iff.mp hflat
      cases hnil
      exact h.standFor_outer hne (h.segments_back hback) (h.layouts.start_back hback)
        (h.effectAt_back hback hvisible) hlayer hlayer'

/-- Layer by layer, the flat frame stands for the nested one. -/
theorem exists_parts {seen : List Nat} (hseen : ∀ i ∈ seen, i ∈ l.visible c)
    {layers flat : List (Layer α)}
    (hlayers : List.Forall₂ (fun i layer => t.layerAt (ofInt c) i = .ok layer) seen layers)
    (hflat : List.Forall₂ (fun j layer' => u.layerAt (ofInt c) j = .ok layer')
      (seen.flatMap (k.standIns p (k.visible (c - l.start p)))) flat) :
    ∃ parts, layers.mapM (t.unfolded inner p) = .ok parts ∧
      List.Forall₂ (fun shown layer' => Alike shown (u.placed layer') ∧
        (l.IsCutOut p → layer'.effect = shown.2.effect)) parts.flatten flat := by
  induction hlayers generalizing flat with
  | nil =>
    cases hflat
    exact ⟨[], rfl, .nil⟩
  | @cons i layer seen layers hlayer _ ih =>
    rw [List.forall_mem_cons] at hseen
    rw [List.flatMap_cons] at hflat
    obtain ⟨front, back, rfl, hfront, hback⟩ := forall₂_append_left hflat
    obtain ⟨part, hpart, halike⟩ := h.standFor_of_standIns hseen.1 hlayer hfront
    obtain ⟨parts, hparts, hrest⟩ := ih hseen.2 hback
    refine ⟨part :: parts, ?_, ?_⟩
    · rw [List.mapM_cons, hpart, ok_bind, hparts, ok_bind]
      rfl
    · rw [List.flatten_cons]
      exact List.rel_append halike hrest

end Nesting

end Layers

/-! ## Frames that can be composed -/

namespace Nesting

variable [Spring.Animated Document] {t inner u : Timeline Document} {nest : Segment Document}
  {l k m : Layout} {p : Nat} (h : Nesting t inner u nest l k m p) {c : Int}

include h

theorem exists_nested_iff (hvisible : p ∈ l.visible c) :
    (∃ s state, t.segments[p]? = some s ∧ s.scene (.int (c - l.start p)) = .ok state) ↔
      inner.Composable k (c - l.start p) := by
  have hclamp := h.clamp_inner hvisible
  have hiff := h.inner_follows.exists_frameAt_iff_composable h.inner_drives (c - l.start p)
  rw [hclamp] at hiff
  rw [← hiff]
  constructor
  · rintro ⟨s, state, hs, hstate⟩
    obtain rfl : s = nest := Option.some.inj (hs.symm.trans h.nested)
    rw [h.scene] at hstate
    obtain ⟨inside, hinside, -⟩ := bind_eq_ok_iff.mp hstate
    exact ⟨inside, hinside⟩
  · rintro ⟨inside, hinside⟩
    refine ⟨nest, inside.snapshot, h.nested, ?_⟩
    rw [h.scene]
    exact bind_eq_ok_iff.mpr ⟨inside, hinside, rfl⟩

theorem composable_flat (hcomposable : t.Composable l c) : u.Composable m c := by
  have hinner : p ∈ l.visible c → inner.Composable k (c - l.start p) := fun hvisible =>
    (h.exists_nested_iff hvisible).mp (hcomposable.scenes p hvisible)
  constructor
  · intro j hj hnext
    rcases k.pair_cases p j with hfront | ⟨n, hn, rfl⟩ | ⟨i, hi, rfl⟩
    · obtain ⟨hj, hnext⟩ := (h.layouts.both_visible_front hfront).mp ⟨hj, hnext⟩
      obtain ⟨e, he⟩ := hcomposable.crossings j hj hnext
      exact ⟨e, (h.crossing_front hfront hnext).trans he⟩
    · rw [Nat.add_assoc] at hnext
      have hn' := (h.layouts.mem_visible_inner (by omega)).mp hj
      have hnext' := (h.layouts.mem_visible_inner hn).mp hnext
      obtain ⟨e, he⟩ := (hinner (h.layouts.mem_visible_of_inner hn')).crossings n hn' hnext'
      exact ⟨e, (h.crossing_inner hnext').trans he⟩
    · rw [Nat.add_right_comm] at hnext
      obtain ⟨hj, hnext⟩ := (h.layouts.both_visible_back hi).mp ⟨hj, hnext⟩
      obtain ⟨e, he⟩ := hcomposable.crossings i hj hnext
      exact ⟨e, (h.crossing_back hi hnext).trans he⟩
  · intro j hj
    rcases k.position_cases p j with hfront | ⟨n, hn, rfl⟩ | ⟨i, hi, rfl⟩
    · rw [h.segments_front hfront, h.layouts.start_front hfront.le]
      exact hcomposable.scenes j ((h.layouts.mem_visible_front hfront).mp hj)
    · have hn' := (h.layouts.mem_visible_inner hn).mp hj
      rw [h.segments_inner hn, h.layouts.start_inner hn, ← Int.sub_sub]
      exact (hinner (h.layouts.mem_visible_of_inner hn')).scenes n hn'
    · rw [h.segments_back hi, h.layouts.start_back hi]
      exact hcomposable.scenes i ((h.layouts.mem_visible_back hi).mp hj)

theorem composable_nested (hcomposable : u.Composable m c) : t.Composable l c := by
  constructor
  · intro i hi hnext
    by_cases hfront : i < p
    · obtain ⟨hi', hnext'⟩ := (h.layouts.both_visible_front hfront).mpr ⟨hi, hnext⟩
      obtain ⟨e, he⟩ := hcomposable.crossings i hi' hnext'
      exact ⟨e, (h.crossing_front hfront hnext).symm.trans he⟩
    · obtain ⟨hi', hnext'⟩ := (h.layouts.both_visible_back (not_lt.mp hfront)).mpr ⟨hi, hnext⟩
      rw [Nat.add_right_comm] at hnext'
      obtain ⟨e, he⟩ := hcomposable.crossings _ hi' hnext'
      exact ⟨e, (h.crossing_back (not_lt.mp hfront) hnext).symm.trans he⟩
  · intro i hi
    rcases Nat.lt_trichotomy i p with hfront | rfl | hback
    · rw [← h.segments_front hfront, ← h.layouts.start_front hfront.le]
      exact hcomposable.scenes i ((h.layouts.mem_visible_front hfront).mpr hi)
    · refine (h.exists_nested_iff hi).mpr ⟨fun n hn hnext => ?_, fun n hn => ?_⟩
      · have hcount := k.lt_count_of_mem_visible hnext
        obtain ⟨e, he⟩ := hcomposable.crossings (i + n)
          ((h.layouts.mem_visible_inner (by omega)).mpr hn)
          ((h.layouts.mem_visible_inner hcount).mpr hnext)
        exact ⟨e, (h.crossing_inner hnext).symm.trans he⟩
      · have hcount := k.lt_count_of_mem_visible hn
        rw [← h.segments_inner hcount, Int.sub_sub, ← h.layouts.start_inner hcount]
        exact hcomposable.scenes (i + n) ((h.layouts.mem_visible_inner hcount).mpr hn)
    · rw [← h.segments_back hback, ← h.layouts.start_back hback]
      exact hcomposable.scenes _ ((h.layouts.mem_visible_back hback).mpr hi)

/-- A frame can be composed with the nested timeline exactly if it can be composed without. -/
theorem exists_frameAt_iff (f : Int) :
    (∃ frame, t.frameAt (.int f) = .ok frame) ↔ ∃ flat, u.frameAt (.int f) = .ok flat := by
  have hclamp : m.clamp f = l.clamp f := by
    unfold Layout.clamp
    rw [h.layouts.duration_eq]
  rw [h.outer_follows.exists_frameAt_iff_composable h.outer_drives,
    h.flat_follows.exists_frameAt_iff_composable h.flat_drives, hclamp]
  exact ⟨h.composable_flat, h.composable_nested⟩

end Nesting

/-! ## All of a timeline -/

section Build

variable [Spring.Animated Document] {front back innerItems : List (Item Document)}
  {fps innerName nestName name flatName : Document} {inner t u : Timeline Document}
  {nest : Segment Document}

omit [Spring.Animated Document] in
/-- With the segments and transitions of a timeline in place of a segment that lasts as long, the
layouts are those of the timelines with their segments and transitions in place too. -/
theorem Follows.splices {l k m : Layout} {p : Nat} (ht : t.Follows l) (hinner : inner.Follows k)
    (hu : u.Follows m) (hnested : t.segments[p]? = some nest)
    (hlasts : nest.length = .int k.duration)
    (hsegments : u.segments = splice t.segments inner.segments p (p + 1))
    (htransitions : u.transitions = splice t.transitions inner.transitions p p) :
    l.Splices k m p := by
  have hinjective : Function.Injective (List.map (ofInt : Int → Document)) :=
    List.map_injective_iff.mpr fun _ _ heq => Document.int.inj heq
  have hinside : p < l.count := by
    rw [← ht.segments_count]
    exact (List.getElem?_eq_some_iff.mp hnested).1
  constructor
  case inside => exact hinside
  case lasts =>
    obtain ⟨s, hs, hlength⟩ := ht.exists_segment hinside
    obtain rfl : s = nest := Option.some.inj (hs.symm.trans hnested)
    exact Document.int.inj (hlength.symm.trans hlasts)
  case lengths =>
    apply hinjective
    rw [← hu.segments, hsegments, map_splice, map_splice, ht.segments, hinner.segments]
  case overlaps =>
    apply hinjective
    rw [← hu.transitions, htransitions, map_splice, map_splice, ht.transitions,
      hinner.transitions]

omit [Spring.Animated Document] in
/-- A timeline lasts as a segment as long as it lasts itself, and shows its own frames. -/
theorem Follows.asSegment_spec {k : Layout} (h : inner.Follows k)
    (hnest : inner.asSegment nestName = .ok nest) :
    (Item.segment nest).IsWhole ∧ nest.length = .int k.duration ∧
      nest.scene = fun frame => do return (← inner.frameAt frame).snapshot := by
  rw [asSegment, h.duration_eq, ok_bind, Segment.build_eq_ok_iff] at hnest
  obtain ⟨hpos, rfl⟩ := hnest
  exact ⟨Item.isWhole_segment_iff.mpr ⟨_, hpos, rfl⟩, rfl, rfl⟩

/-- Timelines built with a nested one and with its items in place of it are in nesting. -/
theorem exists_nesting (houter : ∀ item ∈ front ++ back, item.IsWhole)
    (hinner : ∀ item ∈ innerItems, item.IsWhole)
    (hbuildInner : build innerItems fps innerName = .ok inner)
    (hnest : inner.asSegment nestName = .ok nest)
    (hbuild : build (front ++ .segment nest :: back) fps name = .ok t)
    (hflat : build (front ++ innerItems ++ back) fps flatName = .ok u) :
    ∃ l k m p, Nesting t inner u nest l k m p ∧ front.length = 2 * p := by
  rw [List.forall_mem_append] at houter
  obtain ⟨hfront, hback⟩ := houter
  obtain ⟨k, hk, -, hkalternates, hkfps, -, hkdrives⟩ := follows_of_build hinner hbuildInner
  obtain ⟨hwhole, hlasts, hscene⟩ := hk.asSegment_spec hnest
  have hitems : ∀ item ∈ front ++ .segment nest :: back, item.IsWhole := by
    rw [List.forall_mem_append, List.forall_mem_cons]
    exact ⟨hfront, hwhole, hback⟩
  have hflatItems : ∀ item ∈ front ++ innerItems ++ back, item.IsWhole := by
    rw [List.forall_mem_append, List.forall_mem_append]
    exact ⟨⟨hfront, hinner⟩, hback⟩
  obtain ⟨l, hl, -, hlalternates, hlfps, -, hldrives⟩ := follows_of_build hitems hbuild
  obtain ⟨m, hm, -, hmalternates, hmfps, -, hmdrives⟩ := follows_of_build hflatItems hflat
  obtain ⟨p, hlength, hnested, -, hsplice⟩ := hlalternates.exists_splice
  obtain ⟨hsegments, htransitions⟩ := hmalternates.unique (hsplice hkalternates)
  refine ⟨l, k, m, p, ?_, hlength⟩
  exact {
    outer_follows := hl
    outer_drives := by rw [hldrives, hlfps]
    inner_follows := hk
    inner_drives := by rw [hkdrives, hkfps]
    flat_follows := hm
    flat_drives := by rw [hmdrives, hmfps]
    inner_fps := hkfps.trans hlfps.symm
    flat_fps := hmfps.trans hlfps.symm
    layouts := hl.splices hk hm hnested hlasts hsegments htransitions
    nested := hnested
    scene := hscene
    segments := hsegments
    transitions := htransitions }

/-- Transitions of no length overlap nothing. -/
theorem Nesting.isCutOut {l k m : Layout} {p : Nat} (h : Nesting t inner u nest l k m p)
    (hcut : ∀ (j : Nat) tr, t.transitions[j]? = some tr → j = p ∨ j + 1 = p →
      tr.length = .int 0) : l.IsCutOut p := by
  have hzero : ∀ j, j = p ∨ j + 1 = p → l.overlap j = 0 := by
    intro j hj
    by_cases hlast : j + 1 < l.count
    · obtain ⟨tr, htr, hlength⟩ := h.outer_follows.exists_transition hlast
      exact Document.int.inj (hlength.symm.trans (hcut j tr htr hj))
    · exact l.overlap_eq_zero (not_lt.mp hlast)
  exact ⟨fun i hi => hzero i (.inr hi), hzero p (.inl rfl)⟩

/-- Nesting agrees with flattening: with the inner items in place of the nested segment a timeline
lasts as long and composes a frame at the same places. A nested layer shows the very frame of the
inner timeline that it has reached, and with the layers of that frame in its place the layers show
the same segments at the same frames as the flat ones. They have the same effects if no outer
transition overlaps the nested segment. -/
theorem nested_agrees_with_flat (houter : ∀ item ∈ front ++ back, item.IsWhole)
    (hinner : ∀ item ∈ innerItems, item.IsWhole)
    (hbuildInner : build innerItems fps innerName = .ok inner)
    (hnest : inner.asSegment nestName = .ok nest)
    (hbuild : build (front ++ .segment nest :: back) fps name = .ok t)
    (hflat : build (front ++ innerItems ++ back) fps flatName = .ok u) :
    ∃ p, front.length = 2 * p ∧ t.segments[p]? = some nest ∧
      (∃ n : Int, t.duration = .ok (.int n) ∧ u.duration = .ok (.int n)) ∧
      ∀ f : Int,
        ((∃ frame, t.frameAt (.int f) = .ok frame) ↔ ∃ flat, u.frameAt (.int f) = .ok flat) ∧
        ∀ frame flat, t.frameAt (.int f) = .ok frame → u.frameAt (.int f) = .ok flat →
          flat.globalFrame = frame.globalFrame ∧
          (∀ layer ∈ frame.layers, layer.index = p → ∃ inside,
            inner.frameAt layer.localFrame = .ok inside ∧ layer.state = inside.snapshot ∧
            inside.globalFrame = layer.localFrame) ∧
          ∃ parts, frame.layers.mapM (t.unfolded inner p) = .ok parts ∧
            List.Forall₂ (fun shown layer => Alike shown (u.placed layer)) parts.flatten
              flat.layers ∧
            ((∀ (j : Nat) tr, t.transitions[j]? = some tr → j = p ∨ j + 1 = p →
                tr.length = .int 0) →
              flat.layers.map Layer.effect = parts.flatten.map (fun shown => shown.2.effect) ∧
              ∀ layer ∈ frame.layers, layer.index = p → layer.effect = LayerEffect.full) := by
  obtain ⟨l, k, m, p, h, hlength⟩ :=
    exists_nesting houter hinner hbuildInner hnest hbuild hflat
  have hduration : m.duration = l.duration := h.layouts.duration_eq
  refine ⟨p, hlength, h.nested, ⟨l.duration, h.outer_follows.duration_eq, ?_⟩, fun f =>
    ⟨h.exists_frameAt_iff f, fun frame flat hframe hflat => ?_⟩⟩
  · rw [h.flat_follows.duration_eq, hduration]
    rfl
  have hclamp : m.clamp f = l.clamp f := by rw [Layout.clamp, hduration, Layout.clamp]
  obtain ⟨hglobal, hlayers⟩ := h.outer_follows.frameAt_eq_ok_iff.mp hframe
  obtain ⟨hglobal', hlayers'⟩ := h.flat_follows.frameAt_eq_ok_iff.mp hflat
  rw [hclamp] at hglobal' hlayers'
  have hnested : ∀ layer ∈ frame.layers, layer.index = p →
      p ∈ l.visible (l.clamp f) ∧ t.layerAt (ofInt (l.clamp f)) p = .ok layer := by
    intro layer hlayer hindex
    obtain ⟨i, hi, hlayerAt⟩ := exists_of_mem_mapM (mapM_eq_ok_iff.mpr hlayers) hlayer
    obtain ⟨-, -, hi', -⟩ := h.outer_follows.layerAt_eq_ok_iff.mp hlayerAt
    obtain rfl : i = p := hi'.symm.trans hindex
    exact ⟨hi, hlayerAt⟩
  rw [h.layouts.visible_eq] at hlayers'
  obtain ⟨parts, hparts, hshown⟩ := h.exists_parts (fun i hi => hi) hlayers hlayers'
  refine ⟨hglobal'.trans hglobal.symm, fun layer hlayer hindex => ?_, parts, hparts,
    hshown.imp fun _ _ halike => halike.1, fun hcut => ⟨?_, fun layer hlayer hindex => ?_⟩⟩
  · obtain ⟨hvisible, hlayer⟩ := hnested layer hlayer hindex
    exact (h.exists_inside hvisible hlayer).2
  · rw [← List.forall₂_eq_eq_eq, List.forall₂_map_left_iff, List.forall₂_map_right_iff]
    exact hshown.flip.imp fun _ _ halike => halike.2 (h.isCutOut hcut)
  · obtain ⟨hvisible, hlayer⟩ := hnested layer hlayer hindex
    obtain ⟨-, -, -, -, -, heffect, -⟩ := h.outer_follows.layerAt_eq_ok_iff.mp hlayer
    rw [h.effectAt_nested (h.isCutOut hcut) hvisible] at heffect
    exact (Except.ok.inj heffect).symm

end Build

/-- Two segments one after the other. -/
def twoCards : List (Item Document) :=
  [.segment (counting 2 "first"), .transition (blend 0), .segment (counting 3 "second")]

def lead : List (Item Document) := [.segment (counting 4 "before"), .transition (blend 0)]

def coda : List (Item Document) := [.transition (blend 0), .segment (counting 4 "after")]

/-- Two frames into the nested segment its second card begins. -/
theorem nested_agrees_with_flat_twoCards :
    (∀ item ∈ lead ++ coda, item.IsWhole) ∧ (∀ item ∈ twoCards, item.IsWhole) ∧
      ∃ inner nest t u, build twoCards (.int 30) (.text "cards") = .ok inner ∧
        inner.asSegment .null = .ok nest ∧
        build (lead ++ .segment nest :: coda) (.int 30) (.text "nested") = .ok t ∧
        build (lead ++ twoCards ++ coda) (.int 30) (.text "flat") = .ok u ∧
        ∃ frame flat, t.frameAt (.int 6) = .ok frame ∧ u.frameAt (.int 6) = .ok flat ∧
          frame.layers.map Layer.localFrame = [.int 2] ∧
          flat.layers.map Layer.localFrame = [.int 0] ∧
          ∃ parts, frame.layers.mapM (t.unfolded inner 1) = .ok parts ∧
            List.Forall₂ (fun shown layer => Alike shown (u.placed layer)) parts.flatten
              flat.layers := by
  have houter : ∀ item ∈ lead ++ coda, item.IsWhole := by
    simp only [lead, coda, List.cons_append, List.nil_append, List.forall_mem_cons,
      Item.isWhole_segment_iff, Item.isWhole_transition_iff]
    exact ⟨⟨4, by decide, rfl⟩, ⟨0, by decide, rfl⟩, ⟨0, by decide, rfl⟩, ⟨4, by decide, rfl⟩,
      by simp⟩
  have hinner : ∀ item ∈ twoCards, item.IsWhole := by
    simp only [twoCards, List.forall_mem_cons, Item.isWhole_segment_iff,
      Item.isWhole_transition_iff]
    exact ⟨⟨2, by decide, rfl⟩, ⟨0, by decide, rfl⟩, ⟨3, by decide, rfl⟩, by simp⟩
  obtain ⟨inner, nest, t, u, hbuildInner, hnest, hbuild, hflat, frame, flat, hframe, hflatFrame,
      hlocal, hlocal'⟩ : ∃ inner nest t u,
        build twoCards (.int 30) (.text "cards") = .ok inner ∧
        inner.asSegment .null = .ok nest ∧
        build (lead ++ .segment nest :: coda) (.int 30) (.text "nested") = .ok t ∧
        build (lead ++ twoCards ++ coda) (.int 30) (.text "flat") = .ok u ∧
        ∃ frame flat, t.frameAt (.int 6) = .ok frame ∧ u.frameAt (.int 6) = .ok flat ∧
          frame.layers.map Layer.localFrame = [.int 2] ∧
          flat.layers.map Layer.localFrame = [.int 0] :=
    ⟨_, _, _, _, rfl, rfl, rfl, rfl, _, _, rfl, rfl, rfl, rfl⟩
  obtain ⟨p, hlength, -, -, hframes⟩ :=
    nested_agrees_with_flat houter hinner hbuildInner hnest hbuild hflat
  obtain rfl : p = 1 := by
    have htwo : lead.length = 2 := rfl
    omega
  obtain ⟨-, -, parts, hparts, halike, -⟩ := (hframes 6).2 frame flat hframe hflatFrame
  exact ⟨houter, hinner, inner, nest, t, u, hbuildInner, hnest, hbuild, hflat, frame, flat, hframe,
    hflatFrame, hlocal, hlocal', parts, hparts, halike⟩

end Timeline

end Showreel
