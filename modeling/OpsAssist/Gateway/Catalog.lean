/-
# OpsAssist.Gateway.Catalog -- which models exist, who serves them, how routes fall back

A catalog carries what its validator checked.  Ids are unique, so a target's id
determines its provider (`Catalog.resolve_unique`).
-/
import Mathlib.Data.List.Nodup
import Mathlib.Data.Rat.Defs
import Mathlib.Tactic.SplitIfs

namespace OpsAssist.Gateway

set_option autoImplicit false

inductive ModelKind where
  | chat
  | embedding
deriving DecidableEq

theorem default_timeout_pos : (0 : ℚ) < 30 := by decide

theorem default_attempts_pos : 1 ≤ 2 := by decide

/-- The fields the call loops read. -/
structure ProviderConfig where
  timeoutS : ℚ := 30
  maxAttempts : Nat := 2
  dataEgress : Bool := false
  timeout_pos : 0 < timeoutS := by first | exact default_timeout_pos | decide
  attempts_pos : 1 ≤ maxAttempts := by first | exact default_attempts_pos | decide

/-- The fields the call loops and the validator read; prices and window sizes are left out. -/
structure ModelSpec where
  id : String
  provider : String
  providerModel : String := ""
  kind : ModelKind := .chat
  dimensions : Option Int := none
deriving DecidableEq

structure Catalog where
  providers : List (String × ProviderConfig)
  models : List ModelSpec
  routes : List (String × List String)
  defaultChat : String
  defaultEmbedding : String
  /-- the chat models end users pick from -/
  selectable : List String := []
  unique_ids : (models.map ModelSpec.id).Nodup
  providers_known : ∀ m ∈ models, (providers.lookup m.provider).isSome
  routes_once : (routes.map Prod.fst).Nodup := by decide

namespace Catalog

variable (catalog : Catalog)

/-- `catalog.providers[spec.provider]`; the default stands for a provider no model has. -/
def config (spec : ModelSpec) : ProviderConfig :=
  (catalog.providers.lookup spec.provider).getD {}

def model (modelId : String) : Option ModelSpec := catalog.models.find? fun m => m.id == modelId

/-- The route asked for: `None` and the empty name stand for the default. -/
def routeName (name : Option String) (kind : ModelKind) : String :=
  let fallback := if kind = .chat then catalog.defaultChat else catalog.defaultEmbedding
  match name with
  | some n => if n = "" then fallback else n
  | none => fallback

/-- What a route or a model id that is not in the picker resolves to. -/
def routeTargets (route : String) : List ModelSpec :=
  match catalog.routes.lookup route with
  | some ids => ids.filterMap catalog.model
  | none => (catalog.model route).toList

/-- Route name and targets, or `none` for `UnknownModelError`. -/
def resolve (name : Option String) (kind : ModelKind) : Option (String × List ModelSpec) :=
  if kind = .chat ∧ catalog.routeName name kind ∈ catalog.selectable then
    some (catalog.routeName name kind,
      (catalog.routeName name kind :: catalog.selectable.filter fun m =>
        m != catalog.routeName name kind).filterMap catalog.model)
  else if (catalog.routeTargets (catalog.routeName name kind)).head?.map ModelSpec.kind =
      some kind then
    some (catalog.routeName name kind, catalog.routeTargets (catalog.routeName name kind))
  else none

variable {catalog}

theorem model_mem {modelId : String} {spec : ModelSpec}
    (found : catalog.model modelId = some spec) : spec ∈ catalog.models :=
  List.mem_of_find?_eq_some found

/-- Every target is a model of the catalog. -/
theorem resolve_mem {name : Option String} {kind : ModelKind} {route : String}
    {targets : List ModelSpec} (resolved : catalog.resolve name kind = some (route, targets)) :
    ∀ spec ∈ targets, spec ∈ catalog.models := by
  have listed : ∀ {ids : List String} {spec : ModelSpec},
      spec ∈ ids.filterMap catalog.model → spec ∈ catalog.models := by
    intro ids spec mem
    obtain ⟨modelId, -, found⟩ := List.mem_filterMap.mp mem
    exact model_mem found
  intro spec mem
  unfold resolve at resolved
  split_ifs at resolved
  · obtain ⟨-, rfl⟩ := Prod.mk.inj (Option.some.inj resolved)
    exact listed mem
  · obtain ⟨-, rfl⟩ := Prod.mk.inj (Option.some.inj resolved)
    unfold routeTargets at mem
    split at mem
    · exact listed mem
    · exact model_mem (Option.mem_toList.mp mem)

/-- Targets with one id are one model. -/
theorem resolve_unique {name : Option String} {kind : ModelKind} {route : String}
    {targets : List ModelSpec} (resolved : catalog.resolve name kind = some (route, targets))
    {spec other : ModelSpec} (here : spec ∈ targets) (there : other ∈ targets)
    (same : spec.id = other.id) : spec = other :=
  List.inj_on_of_nodup_map catalog.unique_ids (resolve_mem resolved spec here)
    (resolve_mem resolved other there) same

end Catalog

end OpsAssist.Gateway
