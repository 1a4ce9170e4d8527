import Showreel.Proofs.Fallible
import Showreel.Scene.Registry

/-!
# What the threshold decides

Scenes whose views trade places compare the opacities of the views with a threshold and show the
outcome in flags. Nothing else that they show depends on the threshold, nor does whether they show
anything at all; and under a lower threshold no view loses its input.
-/

namespace Showreel

/-- What is above `b` is above `a` as well, and what cannot be compared with the one cannot be
compared with the other either. -/
def Arith.Undercuts {α : Type} [Arith α] (a b : α) : Prop :=
  ∀ x, Agree (fun above above' : Bool => above' = true → above = true) (lt a x) (lt b x)

/-- The flags that tell whether a view takes input, with the kinds of their records. -/
def gatedFlags : List (String × String) :=
  [("DnsVerificationState", "deaddrop_interactive"), ("DnsVerificationState", "dns_interactive"),
    ("EmbedWidgetState", "site_interactive"), ("EmbedWidgetState", "panel_open"),
    ("DashboardState", "detail_interactive")]

namespace Snapshot

variable {α : Type}

/-- Fields of one name that show the same, unless it is a flag for input, which the second one sets
only if the first one does. -/
inductive FieldDominates (kind : String) : String × Snapshot α → String × Snapshot α → Prop
  | same (field : String × Snapshot α) : FieldDominates kind field field
  | gated {name : String} (hgated : (kind, name) ∈ gatedFlags) {taken taken' : Bool}
      (h : taken' = true → taken = true) :
      FieldDominates kind (name, flag taken) (name, flag taken')

/-- Records that show the same but for flags for input, of which the first one sets those that the
second one sets, and perhaps more. -/
inductive Dominates : Snapshot α → Snapshot α → Prop
  | record (kind : String) {fields fields' : List (String × Snapshot α)}
      (h : List.Forall₂ (FieldDominates kind) fields fields') :
      Dominates (.record kind fields) (.record kind fields')

theorem forall₂_same_fields {kind : String} (fields : List (String × Snapshot α)) :
    List.Forall₂ (FieldDominates kind) fields fields :=
  List.forall₂_same.mpr fun field _ => .same field

theorem Dominates.refl (kind : String) (fields : List (String × Snapshot α)) :
    Dominates (.record kind fields) (.record kind fields) :=
  .record kind (forall₂_same_fields fields)

end Snapshot

open Arith Snapshot

variable {α : Type} [Arith α] {a b frame : α}

/-! ## Views that trade places -/

/-- The same opacities, and input for every view that has it in the second one. -/
structure CrossFade.Dominates (c c' : CrossFade α) : Prop where
  outgoing : c.outgoingOpacity = c'.outgoingOpacity
  incoming : c.incomingOpacity = c'.incomingOpacity
  outer : c'.outgoingInteractive = true → c.outgoingInteractive = true
  inner : c'.incomingInteractive = true → c.incomingInteractive = true

/-- A flag that is set only where a condition holds and something is above the threshold. -/
theorem Arith.Undercuts.gate_bind {β γ : Type} {S : β → γ → Prop} {f : Bool → Except Fault β}
    {g : Bool → Except Fault γ} (h : Undercuts a b) (holds : Bool) (x : α)
    (hf : ∀ taken taken', (taken' = true → taken = true) → Agree S (f taken) (g taken')) :
    Agree S (if holds then lt a x >>= f else pure false >>= f)
      (if holds then lt b x >>= g else pure false >>= g) :=
  .ite ((h x).bind hf) (hf false false id)

theorem CrossFade.swapAt_agree (h : Undercuts a b) (start stop : α) :
    Agree CrossFade.Dominates (swapAt frame start stop a) (swapAt frame start stop b) := by
  unfold swapAt
  refine .same_bind fun outgoing => .same_bind fun incoming => .same_bind fun outer => ?_
  refine h.gate_bind outer outgoing fun _ _ houter => .same_bind fun inner => ?_
  exact h.gate_bind inner incoming fun _ _ hinner => .ok ⟨rfl, rfl, houter, hinner⟩

/-- The same opacities of the two views, and input for every view that has it in the second one. -/
structure DnsVerification.Views.Dominates (v v' : Views α) : Prop where
  deaddrop : v.deaddropOpacity = v'.deaddropOpacity
  dns : v.dnsOpacity = v'.dnsOpacity
  deaddropInput : v'.deaddropInteractive = true → v.deaddropInteractive = true
  dnsInput : v'.dnsInteractive = true → v.dnsInteractive = true

theorem DnsVerification.views_agree (h : Undercuts a b) :
    Agree Views.Dominates (views frame a) (views frame b) := by
  unfold views
  refine (CrossFade.swapAt_agree h _ _).bind fun there there' hthere => ?_
  refine (CrossFade.swapAt_agree h _ _).bind fun back back' hback => ?_
  refine .same_bind fun early => .ite ?_ ?_
  · exact .ok ⟨hthere.outgoing, hthere.incoming, hthere.outer, hthere.inner⟩
  · exact .ok ⟨hback.incoming, hback.outgoing, hback.inner, hback.outer⟩

/-! ## Scenes -/

variable [Spring.Animated α] (stage : Stage α)

theorem Agree.same_choice {β γ δ : Type} {S : γ → δ → Prop} {holds : Bool} {x x' : Except Fault β}
    {f : β → Except Fault γ} {g : β → Except Fault δ} (h : ∀ y, Agree S (f y) (g y)) :
    Agree S (if holds then x >>= f else x' >>= f) (if holds then x >>= g else x' >>= g) :=
  .ite (.same_bind h) (.same_bind h)

theorem DnsVerification.state_agree (h : Undercuts a b) :
    Agree (fun s s' => s.snapshot.Dominates s'.snapshot) (state stage a frame)
      (state stage b frame) := by
  unfold state
  refine (views_agree h).bind fun views views' hviews => ?_
  refine .same_bind fun records => .same_bind fun verified => .same_bind fun border => ?_
  refine .same_bind fun clicking => .same_bind fun visible => .same_bind fun copying => ?_
  refine .same_choice fun copied => .same_choice fun badge => .same_bind fun there => ?_
  refine .same_bind fun hovered => .same_bind fun pointer => .ok ?_
  unfold State.snapshot
  rw [hviews.deaddrop, hviews.dns]
  refine .record _ (.cons (.same _) (.cons (.same _) ?_))
  refine .cons (.gated (by decide) hviews.deaddropInput) (.cons (.same _) ?_)
  exact .cons (.gated (by decide) hviews.dnsInput) (forall₂_same_fields _)

theorem EmbedWidget.state_agree (h : Undercuts a b) :
    Agree (fun s s' => s.snapshot.Dominates s'.snapshot) (state stage a frame)
      (state stage b frame) := by
  unfold state
  refine .same_bind fun deaddropOpacity => .same_bind fun siteOpacity => .same_bind fun pop => ?_
  refine .same_bind fun opening => .same_bind fun pointer => .same_bind fun succeeded => ?_
  refine .same_bind fun leaving => .same_bind fun siteVisible => .same_bind fun gone => ?_
  refine h.gate_bind gone siteOpacity fun _ _ hsite => ?_
  refine .same_bind fun copied => .same_bind fun overlayOpacity => .same_bind fun overlay => ?_
  refine .same_bind fun button => .same_bind fun buttonScale => .same_bind fun panel => ?_
  refine (h opening).bind fun _ _ hpanel => ?_
  refine .same_choice fun panelOpacity => ?_
  refine .same_bind fun name => .same_bind fun email => .same_bind fun message => ?_
  refine .same_bind fun successOpacity => .ok (.record _ ?_)
  iterate 6 refine .cons (.same _) ?_
  refine .cons (.gated (by decide) hsite) ?_
  iterate 6 refine .cons (.same _) ?_
  exact .cons (.gated (by decide) hpanel) (forall₂_same_fields _)

theorem Dashboard.state_agree (h : Undercuts a b) :
    Agree (fun s s' => s.snapshot.Dominates s'.snapshot) (state stage a frame)
      (state stage b frame) := by
  unfold state
  refine .same_bind fun bump => .same_bind fun detailOpacity => .same_bind fun pointer => ?_
  refine .same_bind fun standing => .same_bind fun dashboardOpacity => .same_bind fun entrance => ?_
  refine .same_bind fun early => .same_bind fun badgeScale => .same_bind fun hovered => ?_
  refine .same_bind fun gone => h.gate_bind gone detailOpacity fun _ _ hdetail => ?_
  refine .same_bind fun messages => .same_bind fun read => .same_bind fun marker => ?_
  refine .ok (.record _ ?_)
  iterate 8 refine .cons (.same _) ?_
  exact .cons (.gated (by decide) hdetail) (forall₂_same_fields _)

/-- A lower threshold changes nothing that a scene shows but flags for input, and takes no input
away. -/
theorem Scene.state_agree (h : Undercuts a b) (scene : Scene) :
    Agree Snapshot.Dominates (scene.state stage a frame) (scene.state stage b frame) := by
  cases scene with
  | dnsVerification => exact (DnsVerification.state_agree stage h).bind fun _ _ hs => .ok hs
  | embedWidget => exact (EmbedWidget.state_agree stage h).bind fun _ _ hs => .ok hs
  | dashboard => exact (Dashboard.state_agree stage h).bind fun _ _ hs => .ok hs
  | titleCard => exact .same_bind fun s => .ok (.refl _ _)
  | registerDomain => exact .same_bind fun s => .ok (.refl _ _)
  | outroCard => exact .same_bind fun s => .ok (.refl _ _)

end Showreel
