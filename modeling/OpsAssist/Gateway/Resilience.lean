/-
# OpsAssist.Gateway.Resilience -- retry backoff and per-model circuit breaking

Breakers are keyed by model id.  Time is the event loop's monotonic clock, in seconds.
`CircuitBreaker.allow_cases` says what admission can do to a breaker.
-/
import Mathlib.Algebra.Order.Ring.Rat
import OpsAssist.Providers.Base

namespace OpsAssist.Gateway

set_option autoImplicit false

structure BackoffPolicy where
  baseS : ℚ := 1 / 2
  capS : ℚ := 8

/-- Delay before retry number `attempt` (1-based) using full jitter; `draw` is what the
random generator returns, in `[0, 1)`. -/
def BackoffPolicy.delay (policy : BackoffPolicy) (attempt : Nat) (err : ProviderError)
    (draw : ℚ) : ℚ :=
  match err.kind with
  | .rateLimited (some retryAfterS) => min retryAfterS policy.capS
  | _ => min policy.capS (policy.baseS * 2 ^ (attempt - 1)) * draw

inductive BreakerState where
  | closed
  | open_
  | halfOpen
deriving DecidableEq

/-- Opens after `failureThreshold` consecutive failures; after `cooldownS` lets a single
probe through (half-open). -/
structure CircuitBreaker where
  failureThreshold : Nat := 3
  cooldownS : ℚ := 30
  failures : Nat := 0
  openedAt : Option ℚ := none
  probeInFlight : Bool := false
deriving DecidableEq

namespace CircuitBreaker

def state (b : CircuitBreaker) (now : ℚ) : BreakerState :=
  match b.openedAt with
  | none => .closed
  | some openedAt => if b.cooldownS ≤ now - openedAt then .halfOpen else .open_

/-- Whether `allow` says yes. -/
def admits (b : CircuitBreaker) (now : ℚ) : Bool :=
  match b.state now with
  | .closed => true
  | .halfOpen => !b.probeInFlight
  | .open_ => false

def allow (b : CircuitBreaker) (now : ℚ) : Bool × CircuitBreaker :=
  match b.state now with
  | .closed => (true, b)
  | .halfOpen =>
      if b.probeInFlight then (false, b) else (true, { b with probeInFlight := true })
  | .open_ => (false, b)

def recordSuccess (b : CircuitBreaker) : CircuitBreaker :=
  { b with failures := 0, openedAt := none, probeInFlight := false }

def recordFailure (b : CircuitBreaker) (now : ℚ) : CircuitBreaker :=
  { b with
    probeInFlight := false
    failures := b.failures + 1
    openedAt :=
      if b.openedAt.isSome ∨ b.failureThreshold ≤ b.failures + 1 then some now else b.openedAt }

/-- The breaker after a call was admitted. -/
def admitted (b : CircuitBreaker) (now : ℚ) : CircuitBreaker := (b.allow now).2

theorem allow_fst (b : CircuitBreaker) (now : ℚ) : (b.allow now).1 = b.admits now := by
  unfold allow admits
  cases b.state now with
  | closed => rfl
  | open_ => rfl
  | halfOpen => cases b.probeInFlight <;> rfl

/-- A refused call leaves the breaker alone. -/
theorem admitted_of_refused {b : CircuitBreaker} {now : ℚ} (refused : b.admits now = false) :
    b.admitted now = b := by
  unfold admits at refused
  unfold admitted allow
  cases held : b.state now with
  | closed => rfl
  | open_ => rfl
  | halfOpen =>
      rw [held] at refused
      have probing : b.probeInFlight = true := by simpa using refused
      rw [if_pos probing]

/-- **Admission**: a closed breaker stays as it is; a half-open one without a probe gets
one. -/
theorem admitted_cases {b : CircuitBreaker} {now : ℚ} (admits : b.admits now = true) :
    (b.state now = .closed ∧ b.admitted now = b) ∨
      (b.state now = .halfOpen ∧ b.probeInFlight = false ∧
        b.admitted now = { b with probeInFlight := true }) := by
  unfold CircuitBreaker.admits at admits
  unfold admitted allow
  cases held : b.state now with
  | closed => exact .inl ⟨rfl, rfl⟩
  | open_ =>
      rw [held] at admits
      cases admits
  | halfOpen =>
      rw [held] at admits
      have idle : b.probeInFlight = false := by simpa using admits
      exact .inr ⟨rfl, idle, by simp [idle]⟩

@[simp] theorem state_admitted (b : CircuitBreaker) (now later : ℚ) :
    (b.admitted now).state later = b.state later := by
  unfold admitted allow
  cases b.state now with
  | closed => rfl
  | open_ => rfl
  | halfOpen => cases b.probeInFlight <;> rfl

theorem state_eq_closed {b : CircuitBreaker} {now : ℚ} :
    b.state now = .closed ↔ b.openedAt = none := by
  unfold state
  cases b.openedAt with
  | none => simp
  | some t => by_cases late : b.cooldownS ≤ now - t <;> simp [late]

@[simp] theorem recordSuccess_probe (b : CircuitBreaker) :
    b.recordSuccess.probeInFlight = false := rfl

@[simp] theorem recordFailure_probe (b : CircuitBreaker) (now : ℚ) :
    (b.recordFailure now).probeInFlight = false := rfl

end CircuitBreaker

/-- `BreakerRegistry`: the breaker of each model. -/
abbrev Breakers := String → CircuitBreaker

/-- The registry with one breaker replaced. -/
def Breakers.set (breakers : Breakers) (modelId : String) (b : CircuitBreaker) : Breakers :=
  fun other => if other = modelId then b else breakers other

@[simp] theorem Breakers.set_same (breakers : Breakers) (modelId : String) (b : CircuitBreaker) :
    breakers.set modelId b modelId = b := if_pos rfl

theorem Breakers.set_other {breakers : Breakers} {modelId other : String} {b : CircuitBreaker}
    (ne : other ≠ modelId) : breakers.set modelId b other = breakers other := if_neg ne

end OpsAssist.Gateway
