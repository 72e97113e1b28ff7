/-
# OpsAssist.Tools.ActionHash -- the hash of an action pins it

What is digested is a dump with sorted keys of the tool, the arguments and the requester.

`action_pinned`: the dump of two actions is the same just when the tools are, the requesters
are, and the arguments are one JSON value; with a digest that has no collisions, so is the hash.
Pole: `action_pinned_pole`.
-/
import OpsAssist.Tools.Executor

namespace OpsAssist

set_option autoImplicit false

open Theory

/-- What `action_hash` digests. -/
def actionText (tool : String) (args : Value) (requesterId : String) : String :=
  Json.dumps (.obj [("tool", .str tool), ("arguments", args), ("requester", .str requesterId)])

theorem actionHash_eq (host : Host) (tool : String) (args : Value) (requesterId : String) :
    actionHash host tool args requesterId = host.sha256 (actionText tool args requesterId) := rfl

/-- The members of an action in the order of their keys. -/
theorem canon_action (tool : String) (args : Value) (requesterId : String) :
    Json.canon (.obj
      [("tool", .str tool), ("arguments", args), ("requester", .str requesterId)]) =
      .obj [("arguments", args.canon), ("requester", .str requesterId), ("tool", .str tool)] := by
  simp +decide only [Json.canon, Json.canonMembers, Json.addMember, if_true, if_false]

/-- **The text determines the action**, its arguments up to the order of keys. -/
theorem actionText_eq_iff {tool tool' : String} {args args' : Value} {requester requester' : String} :
    actionText tool args requester = actionText tool' args' requester' ↔
      tool = tool' ∧ args.canon = args'.canon ∧ requester = requester' := by
  rw [actionText, actionText, Json.dumps_eq_iff, canon_action, canon_action]
  simp only [Json.obj.injEq, List.cons.injEq, Prod.mk.injEq, Json.str.injEq, true_and, and_true]
  constructor
  · rintro ⟨arguments, requester, tool⟩
    exact ⟨tool, arguments, requester⟩
  · rintro ⟨tool, arguments, requester⟩
    exact ⟨arguments, requester, tool⟩

/-- **The action hash pins the action.**  Two actions with one text are one action, and with a
digest that has no collisions a hash confirms no other one. -/
theorem action_pinned (host : Host) (tool tool' : String) (args args' : Value)
    (requester requester' : String) :
    (actionText tool args requester = actionText tool' args' requester' →
      tool = tool' ∧ args.canon = args'.canon ∧ requester = requester') ∧
    (Function.Injective host.sha256 → ∀ confirmHash,
      actionHash host tool args requester = confirmHash →
      actionHash host tool' args' requester' = confirmHash →
        tool = tool' ∧ args.canon = args'.canon ∧ requester = requester') := by
  refine ⟨actionText_eq_iff.mp, fun distinct confirmHash here there => ?_⟩
  have same : host.sha256 (actionText tool args requester) =
      host.sha256 (actionText tool' args' requester') := here.trans there.symm
  exact actionText_eq_iff.mp (distinct same)

/-- The arguments of a profile for some days, in both orders of their keys. -/
theorem canon_days (days : Int) :
    Json.canon (.obj [("days", .num (.int days)), ("id", .str "U007")] : Value) =
        .obj [("days", .num (.int days)), ("id", .str "U007")] ∧
      Json.canon (.obj [("id", .str "U007"), ("days", .num (.int days))] : Value) =
        .obj [("days", .num (.int days)), ("id", .str "U007")] := by
  constructor <;>
    simp +decide only [Json.canon, Json.canonMembers, Json.addMember, if_true, if_false]

/-- One day more is another action, with another hash; the order of the keys is nothing. -/
theorem action_pinned_pole :
    actionText "vpn" (.obj [("id", .str "U007"), ("days", .num (.int 7))]) "U001" =
        actionText "vpn" (.obj [("days", .num (.int 7)), ("id", .str "U007")]) "U001" ∧
      actionHash Host.plain "vpn" (.obj [("id", .str "U007"), ("days", .num (.int 7))]) "U001" ≠
        actionHash Host.plain "vpn" (.obj [("id", .str "U007"), ("days", .num (.int 8))]) "U001" := by
  refine ⟨?_, fun same => ?_⟩
  · rw [actionText_eq_iff, (canon_days 7).1, (canon_days 7).2]
    simp
  · have distinct : Function.Injective Host.plain.sha256 := fun a b h => by
      simpa [Host.plain] using h
    have arguments := ((action_pinned Host.plain "vpn" "vpn" _ _ "U001" "U001").2 distinct _
      rfl same.symm).2.1
    rw [(canon_days 7).2, (canon_days 8).2] at arguments
    simp at arguments

end OpsAssist
