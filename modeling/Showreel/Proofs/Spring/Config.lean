import Showreel.Proofs.Fallible
import Showreel.Spring.Config

/-!
# Checked springs

A configuration is made of any numbers that are not found out of range; nothing else is asked of
them.
-/

namespace Showreel.Spring.Config

open Arith

theorem build_eq_ok_iff_checks {α : Type} [Arith α] {mass damping stiffness : α}
    {clamping : Document} {c : Config α} : build mass damping stiffness clamping = .ok c ↔
      c = ⟨mass, damping, stiffness, clamping⟩ ∧ le mass (ofInt 0) = .ok false ∧
        le stiffness (ofInt 0) = .ok false ∧ lt damping (ofInt 0) = .ok false := by
  have htold {x : α} {reason : String → Rejection} :
      (shown x >>= fun got => (reject (reason got) : Except Fault (Config α))) ≠ .ok c :=
    bind_ne_ok fun _ => reject_ne_ok
  simp only [build, reject_bind]
  rw [unless_eq_ok_iff htold, unless_eq_ok_iff htold, unless_eq_ok_iff htold, pure_eq_ok,
    Except.ok.injEq, eq_comm (b := c), and_comm (a := c = _), and_assoc, and_assoc]

end Showreel.Spring.Config
