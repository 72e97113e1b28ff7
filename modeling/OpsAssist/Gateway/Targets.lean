/-
# OpsAssist.Gateway.Targets -- what the two call loops share

The gateway with its catalog and providers, the attempt records, admission, the walk to
the next admitted target, the retry decision and what an error does to a breaker.

`nextTarget_cases` says where the walk ends and what it leaves behind.  The poles of the
gateway run on `poleGateway`.
-/
import OpsAssist.Gateway.Catalog
import OpsAssist.Gateway.Resilience
import OpsAssist.Theory.Binary64

namespace OpsAssist.Gateway

set_option autoImplicit false

open Theory

/-! ## Data -/

inductive AttemptOutcome where
  | success
  | error
  | timeout
  | cancelled
  | skipped
deriving DecidableEq

/-- Usage and cost are left out; the latency is in seconds, unrounded. -/
structure AttemptRecord where
  kind : ModelKind
  modelId : String
  provider : String
  attempt : Nat
  outcome : AttemptOutcome
  latency : ℚ := 0
  ttft : Option ℚ := none
  errorType : Option ProviderErrorKind := none
  detail : Option String := none
deriving DecidableEq

inductive GatewayErrorCode where
  | badRequest
  | providerUnavailable
  | noAvailableProvider
  | deadlineExceeded
  /-- streams only -/
  | providerErrorMidStream
deriving DecidableEq

structure GatewayConfig where
  requestDeadlineS : ℚ := 120
  streamDeadlineS : ℚ := 300
  streamIdleTimeoutS : ℚ := 30

structure LLMGateway where
  catalog : Catalog
  /-- the providers set up, with what each can serve -/
  providers : List (String × List ModelKind)
  config : GatewayConfig := {}
  backoff : BackoffPolicy := {}

/-- What a call leaves in the log, and the attempts it starts. -/
inductive Note where
  | skipped (spec : ModelSpec) (reason : String)
  /-- an admitted target found no time left for attempt `n` -/
  | late (spec : ModelSpec) (n : Nat) (now : ℚ)
  | started (spec : ModelSpec) (n : Nat) (now timeout : ℚ)
  | failed (spec : ModelSpec) (n : Nat) (err : ProviderError) (now : ℚ)
      (before after : CircuitBreaker)
  | succeeded (spec : ModelSpec) (n : Nat) (now : ℚ) (before after : CircuitBreaker)
  /-- the retry after attempt `n` -/
  | scheduled (spec : ModelSpec) (n : Nat) (delay now : ℚ) (breaker : CircuitBreaker)
deriving DecidableEq

/-- A coroutine after a segment, the breakers and what the segment leaves in the log. -/
structure Segment (σ ν : Type) where
  state : σ
  breakers : Breakers
  notes : List ν := []

namespace LLMGateway

variable (gateway : LLMGateway)

def isAvailable (spec : ModelSpec) : Bool := (gateway.providers.lookup spec.provider).isSome

/-- Whether the provider is set up and can chat. -/
def chatProvider (spec : ModelSpec) : Bool :=
  ((gateway.providers.lookup spec.provider).map fun kinds => kinds.contains .chat).getD false

/-- `_egress_blocked`: targets that may not receive this request's data. -/
def egressBlocked (targets : List ModelSpec) (allowEgress : Bool) : List String :=
  if allowEgress then []
  else (targets.filter fun t => (gateway.catalog.config t).dataEgress).map ModelSpec.id

end LLMGateway

/-- `_admit`: why the target is skipped, or `none`; and the breakers after asking. -/
def admitTarget (spec : ModelSpec) (provider : Bool) (blocked : List String) (now : ℚ)
    (breakers : Breakers) : Option String × Breakers :=
  if spec.id ∈ blocked then (some "egress_not_permitted", breakers)
  else if provider = false then (some "provider_disabled", breakers)
  else
    let asked := (breakers spec.id).allow now
    (if asked.1 then none else some "circuit_open", breakers.set spec.id asked.2)

def skipRecord (kind : ModelKind) (spec : ModelSpec) (reason : String) : AttemptRecord :=
  { kind, modelId := spec.id, provider := spec.provider, attempt := 0, outcome := .skipped,
    detail := some reason }

/-- Where the loop over the targets gets to before the next attempt. -/
structure Choice where
  /-- the targets skipped, with the reasons -/
  skips : List (ModelSpec × String) := []
  breakers : Breakers
  /-- the admitted target and those after it -/
  found : Option (ModelSpec × List ModelSpec) := none

def nextTarget (provider : ModelSpec → Bool) (blocked : List String) (now : ℚ) :
    List ModelSpec → Breakers → Choice
  | [], breakers => { breakers }
  | spec :: rest, breakers =>
      match admitTarget spec (provider spec) blocked now breakers with
      | (none, breakers) => { breakers, found := some (spec, rest) }
      | (some reason, breakers) =>
          let choice := nextTarget provider blocked now rest breakers
          { choice with skips := (spec, reason) :: choice.skips }

/-- `_update_breaker` -/
def updateBreaker (breakers : Breakers) (spec : ModelSpec) (err : ProviderError) (now : ℚ) :
    Breakers :=
  match err.kind with
  | .badRequest | .modelNotFound => breakers
  | .auth | .responseError =>
      breakers.set spec.id ((breakers spec.id).recordFailure now)
  | _ =>
      if err.retryable then breakers.set spec.id ((breakers spec.id).recordFailure now)
      else breakers

/-- `_should_retry`: the delay before the next attempt. -/
def shouldRetry (gateway : LLMGateway) (err : ProviderError) (spec : ModelSpec) (attempt : Nat)
    (breaker : CircuitBreaker) (deadline now draw : ℚ) : Option ℚ :=
  if err.retryable = false ∨ (gateway.catalog.config spec).maxAttempts ≤ attempt then none
  else if breaker.state now ≠ .closed then none
  else
    let delay := gateway.backoff.delay attempt err draw
    if deadline ≤ now + delay then none else some delay

/-- `f"{s:.1f}"` of a positive number of seconds. -/
def tenths (s : ℚ) : String :=
  let n := Binary64.halfEven (s * 10).num.toNat (s * 10).den
  toString (n / 10) ++ "." ++ toString (n % 10)

/-- A failure with the text of the exception. -/
def providerError (kind : ProviderErrorKind) (provider message : String) : ProviderError :=
  { kind, text := "[" ++ provider ++ "] " ++ message }

/-- `_attempt` for a failed attempt. -/
def failedRecord (kind : ModelKind) (spec : ModelSpec) (n : Nat) (started now : ℚ)
    (ttft : Option ℚ) (err : ProviderError) : AttemptRecord :=
  { kind, modelId := spec.id, provider := spec.provider, attempt := n,
    outcome := if err.kind = .timeout then .timeout else .error,
    latency := now - started, ttft, errorType := some err.kind,
    detail := some (String.ofList (err.text.toList.take 300)) }

/-- `_attempt` for an attempt that succeeded. -/
def successRecord (kind : ModelKind) (spec : ModelSpec) (n : Nat) (started now : ℚ)
    (ttft : Option ℚ) : AttemptRecord :=
  { kind, modelId := spec.id, provider := spec.provider, attempt := n, outcome := .success,
    latency := now - started, ttft }

/-- The code when no target is left. -/
def exhausted (attempts : List AttemptRecord) : GatewayErrorCode :=
  if attempts.all fun a => a.outcome == .skipped then .noAvailableProvider
  else .providerUnavailable

/-! ## The walk over the targets -/

/-- Whether the loop admits the target. -/
def Admissible (provider : ModelSpec → Bool) (blocked : List String) (now : ℚ)
    (breakers : Breakers) (spec : ModelSpec) : Prop :=
  spec.id ∉ blocked ∧ provider spec = true ∧ (breakers spec.id).admits now = true

theorem Breakers.set_self (breakers : Breakers) (modelId : String) :
    breakers.set modelId (breakers modelId) = breakers := by
  funext other
  unfold Breakers.set
  split
  · rename_i same
    rw [same]
  · rfl

/-- **Admission**: what is asked of a target, and what asking does. -/
theorem admit_cases (provider : ModelSpec → Bool) (blocked : List String) (now : ℚ)
    (spec : ModelSpec) (breakers : Breakers) :
    (Admissible provider blocked now breakers spec ∧
      admitTarget spec (provider spec) blocked now breakers =
        (none, breakers.set spec.id ((breakers spec.id).admitted now))) ∨
    (¬Admissible provider blocked now breakers spec ∧
      ∃ reason, admitTarget spec (provider spec) blocked now breakers = (some reason, breakers) ∧
        (reason = "egress_not_permitted" ↔ spec.id ∈ blocked)) := by
  unfold admitTarget Admissible
  by_cases kept : spec.id ∈ blocked
  · right
    rw [if_pos kept]
    exact ⟨fun h => h.1 kept, _, rfl, by simp [kept]⟩
  rw [if_neg kept]
  cases there : provider spec with
  | false =>
      right
      rw [if_pos rfl]
      exact ⟨fun h => Bool.noConfusion h.2.1, _, rfl, by simp [kept]⟩
  | true =>
      rw [if_neg Bool.noConfusion]
      have asked := (breakers spec.id).allow_fst now
      cases answer : (breakers spec.id).admits now with
      | true =>
          left
          dsimp only
          rw [asked, answer, if_pos rfl]
          exact ⟨⟨kept, rfl, rfl⟩, rfl⟩
      | false =>
          right
          refine ⟨fun h => Bool.noConfusion h.2.2, "circuit_open", ?_, by simp [kept]⟩
          have same : ((breakers spec.id).allow now).2 = breakers spec.id :=
            CircuitBreaker.admitted_of_refused answer
          dsimp only
          rw [asked, answer, same, Breakers.set_self]
          rfl

/-- **The walk** ends at the first admissible target, or past the last; the breakers of
the targets it skips are as they were. -/
theorem nextTarget_cases (provider : ModelSpec → Bool) (blocked : List String) (now : ℚ) :
    ∀ (targets : List ModelSpec) (breakers : Breakers),
    (∃ before spec rest, targets = before ++ spec :: rest ∧
      (∀ t ∈ before, ¬Admissible provider blocked now breakers t) ∧
      Admissible provider blocked now breakers spec ∧
      (nextTarget provider blocked now targets breakers).found = some (spec, rest) ∧
      (nextTarget provider blocked now targets breakers).skips.map Prod.fst = before ∧
      (nextTarget provider blocked now targets breakers).breakers =
        breakers.set spec.id ((breakers spec.id).admitted now)) ∨
    ((∀ t ∈ targets, ¬Admissible provider blocked now breakers t) ∧
      (nextTarget provider blocked now targets breakers).found = none ∧
      (nextTarget provider blocked now targets breakers).skips.map Prod.fst = targets ∧
      (nextTarget provider blocked now targets breakers).breakers = breakers)
  | [], breakers => .inr ⟨fun _ mem => absurd mem List.not_mem_nil, rfl, rfl, rfl⟩
  | spec :: rest, breakers => by
      rcases admit_cases provider blocked now spec breakers with
        ⟨ready, asked⟩ | ⟨refused, reason, asked, -⟩
      · left
        refine ⟨[], spec, rest, rfl, fun _ mem => absurd mem List.not_mem_nil, ready, ?_⟩
        rw [nextTarget, asked]
        exact ⟨rfl, rfl, rfl⟩
      · rw [nextTarget, asked]
        rcases nextTarget_cases provider blocked now rest breakers with
          ⟨before, found, after, shape, skipped, ready, here, passed, left⟩ | ⟨none, here, passed, left⟩
        · refine .inl ⟨spec :: before, found, after, by rw [shape, List.cons_append], ?_, ready, here,
            by rw [List.map_cons, passed], left⟩
          exact List.forall_mem_cons.mpr ⟨refused, skipped⟩
        · exact .inr ⟨List.forall_mem_cons.mpr ⟨refused, none⟩, here, by rw [List.map_cons, passed],
            left⟩

/-- The errors that trip the breaker. -/
def trips (err : ProviderError) : Bool :=
  match err.kind with
  | .badRequest | .modelNotFound => false
  | _ => true

theorem updateBreaker_eq (breakers : Breakers) (spec : ModelSpec) (err : ProviderError) (now : ℚ) :
    updateBreaker breakers spec err now =
      if trips err then breakers.set spec.id ((breakers spec.id).recordFailure now)
      else breakers := by
  obtain ⟨kind, text⟩ := err
  cases kind <;> rfl

/-! ## What a segment touches -/

/-- The target of the attempt a note starts. -/
def Note.invoked? : Note → Option ModelSpec
  | .started spec _ _ _ => some spec
  | _ => none

/-- A segment starts attempts and touches breakers only of targets with the property. -/
structure Confined (P : ModelSpec → Prop) (before after : Breakers)
    (invoked : List ModelSpec) : Prop where
  invoked : ∀ spec ∈ invoked, P spec
  breakers : ∀ modelId, (∀ spec, P spec → spec.id ≠ modelId) → after modelId = before modelId

/-- The targets passed over are not attempted. -/
theorem skips_uninvoked (skips : List (ModelSpec × String)) :
    (skips.map fun s => Note.skipped s.1 s.2).filterMap Note.invoked? = [] := by
  induction skips with
  | nil => rfl
  | cons s skips ih => exact ih

theorem Confined.refl {P : ModelSpec → Prop} (breakers : Breakers) : Confined P breakers breakers [] :=
  ⟨fun _ mem => absurd mem List.not_mem_nil, fun _ _ => rfl⟩

theorem Confined.trans {P : ModelSpec → Prop} {before mid after : Breakers}
    {invoked later : List ModelSpec} (first : Confined P before mid invoked)
    (second : Confined P mid after later) : Confined P before after (invoked ++ later) where
  invoked spec mem := by
    rcases List.mem_append.mp mem with early | late
    · exact first.invoked spec early
    · exact second.invoked spec late
  breakers modelId other := (second.breakers modelId other).trans (first.breakers modelId other)

theorem Confined.set {P : ModelSpec → Prop} {spec : ModelSpec} (here : P spec)
    (breakers : Breakers) (b : CircuitBreaker) {invoked : List ModelSpec}
    (each : ∀ t ∈ invoked, P t) : Confined P breakers (breakers.set spec.id b) invoked :=
  ⟨each, fun _ other => Breakers.set_other (other spec here).symm⟩

theorem Confined.update {P : ModelSpec → Prop} {spec : ModelSpec} (here : P spec)
    (breakers : Breakers) (err : ProviderError) (now : ℚ) :
    Confined P breakers (updateBreaker breakers spec err now) [] := by
  rw [updateBreaker_eq]
  split
  · exact .set here breakers _ (fun _ mem => absurd mem List.not_mem_nil)
  · exact .refl breakers

/-! ## Poles -/

def poleLocal : ModelSpec := { id := "local/small", provider := "local" }

def poleCloudModel : ModelSpec := { id := "cloud/large", provider := "cloud" }

/-- A provider on the box and one outside. -/
def poleGateway : LLMGateway where
  catalog :=
    { providers := [("local", {}), ("cloud", { dataEgress := true })]
      models := [poleLocal, poleCloudModel]
      routes := [("both", ["cloud/large", "local/small"])]
      defaultChat := "both"
      defaultEmbedding := "both"
      unique_ids := by decide
      providers_known := by decide }
  providers := [("local", [.chat]), ("cloud", [.chat])]

def poleBreakers : Breakers := fun _ => {}

end OpsAssist.Gateway
