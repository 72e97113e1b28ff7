/-
# OpsAssist.Config -- classifications, and which of them may leave the box
-/
import Mathlib.Data.List.Basic

namespace OpsAssist

set_option autoImplicit false

/-- The classifications the tables admit. -/
inductive Classification where
  | public_
  | internal
  | confidential
deriving DecidableEq

namespace Classification

/-- `_RANK` -/
def rank : Classification → Nat
  | .public_ => 0
  | .internal => 1
  | .confidential => 2

theorem rank_injective {c d : Classification} (same : c.rank = d.rank) : c = d := by
  cases c <;> cases d <;> first | rfl | cases same

/-- A classification or none, by how much it restricts. -/
def level : Option Classification → Nat
  | none => 0
  | some c => c.rank + 1

theorem level_injective : ∀ {c d : Option Classification}, level c = level d → c = d
  | none, none, _ => rfl
  | none, some _, same => absurd same (by simp [level])
  | some _, none, same => absurd same (by simp [level])
  | some c, some d, same => by
      have ranks : c.rank = d.rank := Nat.succ.inj same
      rw [rank_injective ranks]

end Classification

open Classification

/-- `most_sensitive`: the highest of these classifications. -/
def mostSensitive (classifications : List (Option Classification)) : Option Classification :=
  (classifications.filterMap id).foldl
    (fun best c =>
      match best with
      | none => some c
      | some b => if b.rank < c.rank then some c else some b)
    none

/-- One step of the search for the highest. -/
theorem level_better (best : Option Classification) (c : Classification) :
    level (match best with
      | none => some c
      | some b => if b.rank < c.rank then some c else some b) = max (level best) (level (some c)) := by
  cases best with
  | none => exact (Nat.zero_max _).symm
  | some b =>
      by_cases less : b.rank < c.rank
      · simp only [if_pos less, level]
        omega
      · simp only [if_neg less, level]
        omega

theorem level_foldl_better : ∀ (cs : List Classification) (best : Option Classification),
    level (cs.foldl (fun best c =>
      match best with
      | none => some c
      | some b => if b.rank < c.rank then some c else some b) best) =
      (cs.map fun c => level (some c)).foldl max (level best)
  | [], _ => rfl
  | c :: cs, best => by
      rw [List.foldl_cons, level_foldl_better cs, level_better, List.map_cons, List.foldl_cons]

/-- The highest restricts as much as the most restrictive one. -/
theorem level_mostSensitive_pair (a b : Option Classification) :
    level (mostSensitive [a, b]) = max (level a) (level b) := by
  unfold mostSensitive
  rw [level_foldl_better]
  cases a <;> cases b <;> simp [level]

theorem foldl_max_le {bound : Nat} : ∀ {ns : List Nat} {start : Nat},
    ns.foldl max start ≤ bound ↔ start ≤ bound ∧ ∀ n ∈ ns, n ≤ bound
  | [], start => by simp
  | n :: ns, start => by
      rw [List.foldl_cons, foldl_max_le, List.forall_mem_cons, Nat.max_le, and_assoc]

/-- The highest is bounded exactly when each is. -/
theorem level_mostSensitive_le {cs : List (Option Classification)} {bound : Nat} :
    level (mostSensitive cs) ≤ bound ↔ ∀ c ∈ cs, level c ≤ bound := by
  unfold mostSensitive
  rw [level_foldl_better, foldl_max_le]
  constructor
  · rintro ⟨-, all⟩ c mem
    cases c with
    | none => exact Nat.zero_le _
    | some c =>
        apply all
        exact List.mem_map.mpr ⟨c, List.mem_filterMap.mpr ⟨some c, mem, rfl⟩, rfl⟩
  · intro all
    refine ⟨Nat.zero_le _, ?_⟩
    intro n mem
    obtain ⟨c, there, rfl⟩ := List.mem_map.mp mem
    obtain ⟨d, inside, here⟩ := List.mem_filterMap.mp there
    exact all (some c) (by rw [← show d = some c from here]; exact inside)

/-- The settings the chat path reads; the others are left out. -/
structure Settings where
  egressMaxClassification : Classification := .internal
  historyMaxMessages : Nat := 20
  historyTokenBudget : Nat := 3000
  escalationModel : Option String := some "ollama/llama3.1-8b"

/-- May context of this classification leave our boundary? -/
def Settings.allowsEgress (settings : Settings) : Option Classification → Bool
  | none => true
  | some c => decide (c.rank ≤ settings.egressMaxClassification.rank)

theorem allowsEgress_iff {settings : Settings} {c : Option Classification} :
    settings.allowsEgress c = true ↔ level c ≤ settings.egressMaxClassification.rank + 1 := by
  cases c with
  | none => simp [Settings.allowsEgress, level]
  | some c => simp [Settings.allowsEgress, level]

/-- What restricts less may leave where what restricts more may. -/
theorem allowsEgress_of_level_le {settings : Settings} {c d : Option Classification}
    (le : level c ≤ level d) (allowed : settings.allowsEgress d = true) :
    settings.allowsEgress c = true :=
  allowsEgress_iff.mpr (Nat.le_trans le (allowsEgress_iff.mp allowed))

end OpsAssist
