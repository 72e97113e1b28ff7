/-
# OpsAssist.Gateway.BreakerHistory -- a circuit breaker is what has been recorded of it

A breaker keeps a count, an instant and a flag, and its state depends on the clock.
`breaker_characterised` says all of it by the history of calls: how many failures have been
recorded since the last success, when the last one at or beyond the threshold was, and whether
a probe has gone out since the last outcome.
Pole: `breaker_characterised_pole`.
-/
import OpsAssist.Gateway.Resilience
import Mathlib.Tactic.Linarith

namespace OpsAssist.Gateway.BreakerHistory

set_option autoImplicit false

/-! ## Histories -/

/-- A call, and what the clock shows. -/
inductive Event where
  | allow (now : ℚ)
  | success (now : ℚ)
  | failure (now : ℚ)

namespace Event

def time : Event → ℚ
  | .allow now | .success now | .failure now => now

/-- The call records an outcome. -/
def isOutcome : Event → Bool
  | .allow _ => false
  | .success _ | .failure _ => true

end Event

/-- The calls so far, the latest first. -/
abbrev History := List Event

def step (b : CircuitBreaker) : Event → CircuitBreaker
  | .allow now => (b.allow now).2
  | .success _ => b.recordSuccess
  | .failure now => b.recordFailure now

/-- The breaker after these calls. -/
def breaker (threshold : Nat) (cooldown : ℚ) : History → CircuitBreaker
  | [] => { failureThreshold := threshold, cooldownS := cooldown }
  | event :: earlier => step (breaker threshold cooldown earlier) event

/-- The failures recorded since the last recorded success, or the start. -/
def failuresSince : History → Nat
  | [] => 0
  | .success _ :: _ => 0
  | .failure _ :: earlier => failuresSince earlier + 1
  | .allow _ :: earlier => failuresSince earlier

/-- When the latest failure at or beyond the threshold was recorded. -/
def lastTrip (threshold : Nat) : History → Option ℚ
  | [] => none
  | .failure now :: earlier =>
      if threshold ≤ failuresSince earlier + 1 then some now else lastTrip threshold earlier
  | .success _ :: earlier | .allow _ :: earlier => lastTrip threshold earlier

/-! ## The fields of a breaker -/

/-- What the fields say of the history. -/
structure Tells (threshold : Nat) (cooldown : ℚ) (history : History) (b : CircuitBreaker) : Prop where
  limit : b.failureThreshold = threshold
  pause : b.cooldownS = cooldown
  failures : b.failures = failuresSince history
  opened : b.openedAt =
    if threshold ≤ failuresSince history then lastTrip threshold history else none

section

variable {threshold : Nat} {cooldown : ℚ} {history : History} {b : CircuitBreaker}

/-- Where the threshold is reached, a failure has reached it. -/
theorem lastTrip_isSome (positive : 1 ≤ threshold) : ∀ {history : History},
    threshold ≤ failuresSince history → ∃ t, lastTrip threshold history = some t
  | [], reached => by
      rw [failuresSince] at reached
      omega
  | .success _ :: _, reached => by
      rw [failuresSince] at reached
      omega
  | .failure now :: earlier, reached => ⟨now, if_pos reached⟩
  | .allow _ :: earlier, reached => @lastTrip_isSome positive earlier reached

/-- It has been recorded. -/
theorem lastTrip_mem {t : ℚ} : ∀ {history : History}, lastTrip threshold history = some t →
    t ∈ history.map Event.time
  | .failure now :: earlier, last => by
      rw [lastTrip] at last
      by_cases reached : threshold ≤ failuresSince earlier + 1
      · rw [if_pos reached, Option.some.injEq] at last
        exact List.mem_cons.mpr (.inl last.symm)
      · rw [if_neg reached] at last
        exact List.mem_cons_of_mem _ (lastTrip_mem last)
  | .success _ :: _, last | .allow _ :: _, last => List.mem_cons_of_mem _ (lastTrip_mem last)

theorem tells_allow (tells : Tells threshold cooldown history b) (now : ℚ) :
    Tells threshold cooldown (.allow now :: history) (b.allow now).2 := by
  have kept : (b.allow now).2 = b ∨ (b.allow now).2 = { b with probeInFlight := true } := by
    unfold CircuitBreaker.allow
    cases b.state now with
    | closed => exact .inl rfl
    | open_ => exact .inl rfl
    | halfOpen => cases b.probeInFlight <;> simp
  rcases kept with same | probing
  · rw [same]
    exact ⟨tells.limit, tells.pause, tells.failures, tells.opened⟩
  · rw [probing]
    exact ⟨tells.limit, tells.pause, tells.failures, tells.opened⟩

theorem tells_success (positive : 1 ≤ threshold) (tells : Tells threshold cooldown history b)
    (now : ℚ) : Tells threshold cooldown (.success now :: history) b.recordSuccess where
  limit := tells.limit
  pause := tells.pause
  failures := rfl
  opened := (if_neg (Nat.not_le.mpr positive)).symm

theorem tells_failure (tells : Tells threshold cooldown history b) (now : ℚ) :
    Tells threshold cooldown (.failure now :: history) (b.recordFailure now) where
  limit := tells.limit
  pause := tells.pause
  failures := congrArg (· + 1) tells.failures
  opened := by
    rw [CircuitBreaker.recordFailure, tells.limit, tells.failures, tells.opened]
    by_cases reached : threshold ≤ failuresSince history + 1
    · simp [reached, failuresSince, lastTrip]
    · have before : ¬threshold ≤ failuresSince history := by omega
      simp [reached, before, failuresSince]

/-- **The fields tell the history**, whatever has been called. -/
theorem breaker_tells (positive : 1 ≤ threshold) (cooldown : ℚ) : ∀ history : History,
    Tells threshold cooldown history (breaker threshold cooldown history)
  | [] => ⟨rfl, rfl, rfl, (if_neg (Nat.not_le.mpr positive)).symm⟩
  | .allow now :: earlier => tells_allow (breaker_tells positive cooldown earlier) now
  | .success now :: earlier => tells_success positive (breaker_tells positive cooldown earlier) now
  | .failure now :: earlier => tells_failure (breaker_tells positive cooldown earlier) now

/-! ## Probes -/

/-- A call lets a probe through. -/
def Probes (b : CircuitBreaker) (now : ℚ) : Prop :=
  b.state now = .halfOpen ∧ (b.allow now).1 = true

theorem probing_of_probes {now : ℚ} (probes : Probes b now) :
    (b.allow now).2.probeInFlight = true := by
  obtain ⟨half, allowed⟩ := probes
  unfold CircuitBreaker.allow at allowed ⊢
  rw [half] at allowed ⊢
  cases flying : b.probeInFlight <;> simp_all

theorem not_probes_of_probing {now : ℚ} (flying : b.probeInFlight = true) : ¬Probes b now := by
  rintro ⟨half, allowed⟩
  unfold CircuitBreaker.allow at allowed
  rw [half] at allowed
  simp [flying] at allowed

/-- A probe is out until an outcome is recorded. -/
theorem probing_since : ∀ {between earlier : History},
    (∀ event ∈ between, event.isOutcome = false) →
    (breaker threshold cooldown earlier).probeInFlight = true →
    (breaker threshold cooldown (between ++ earlier)).probeInFlight = true
  | [], _, _, flying => flying
  | .allow now :: between, earlier, quiet, flying => by
      have before := @probing_since between earlier
        (fun event mem => quiet event (List.mem_cons_of_mem _ mem)) flying
      show ((breaker threshold cooldown (between ++ earlier)).allow now).2.probeInFlight = true
      unfold CircuitBreaker.allow
      cases (breaker threshold cooldown (between ++ earlier)).state now <;> simp [before]
  | .success _ :: _, _, quiet, _ | .failure _ :: _, _, quiet, _ => by
      simpa [Event.isOutcome] using quiet _ List.mem_cons_self

end

/-- **A circuit breaker is characterised by its history.**  Here the clock shows `now`, and has
never gone back. -/
theorem breaker_characterised (threshold : Nat) (cooldown : ℚ) (history : History) (now : ℚ)
    (positive : 1 ≤ threshold)
    (clock : (now :: history.map Event.time).Pairwise (· ≥ ·)) :
    ((breaker threshold cooldown history).state now = .closed ↔
      failuresSince history < threshold) ∧
    ((breaker threshold cooldown history).state now ≠ .closed →
      ∃ t, lastTrip threshold history = some t ∧
        ((breaker threshold cooldown history).state now = .open_ ↔ t ≤ now ∧ now < t + cooldown)) ∧
    ((breaker threshold cooldown history).state now = .closed →
      ((breaker threshold cooldown history).allow now).1 = true) ∧
    ((breaker threshold cooldown history).state now = .open_ →
      ((breaker threshold cooldown history).allow now).1 = false) ∧
    (∀ between earlier t, history = between ++ .allow t :: earlier →
      (∀ event ∈ between, event.isOutcome = false) →
      Probes (breaker threshold cooldown earlier) t →
        ¬Probes (breaker threshold cooldown history) now) := by
  have tells := breaker_tells positive cooldown history
  have closed : (breaker threshold cooldown history).state now = .closed ↔
      failuresSince history < threshold := by
    rw [CircuitBreaker.state_eq_closed, tells.opened]
    by_cases reached : threshold ≤ failuresSince history
    · obtain ⟨t, last⟩ := lastTrip_isSome positive reached
      rw [if_pos reached, last]
      exact iff_of_false nofun (Nat.not_lt.mpr reached)
    · rw [if_neg reached]
      exact iff_of_true rfl (Nat.not_le.mp reached)
  refine ⟨closed, fun other => ?_, fun state => ?_, fun state => ?_, ?_⟩
  · have reached := Nat.not_lt.mp fun fewer => other (closed.mpr fewer)
    obtain ⟨t, last⟩ := lastTrip_isSome positive reached
    have past : t ≤ now := (List.pairwise_cons.mp clock).1 t (lastTrip_mem last)
    refine ⟨t, last, ?_⟩
    have opened : (breaker threshold cooldown history).openedAt = some t := by
      rw [tells.opened, if_pos reached, last]
    simp only [CircuitBreaker.state, opened, tells.pause]
    by_cases cooled : cooldown ≤ now - t
    · rw [if_pos cooled]
      exact iff_of_false nofun fun inside => by linarith [inside.2]
    · rw [if_neg cooled]
      exact iff_of_true rfl ⟨past, by linarith⟩
  · rw [CircuitBreaker.allow, state]
  · rw [CircuitBreaker.allow, state]
  · rintro between earlier t rfl quiet probed
    exact not_probes_of_probing (probing_since quiet (probing_of_probes probed))

/-! ## Poles -/

/-- Two failures open the breaker, the cooldown lets one probe through, and the next call waits
for its outcome. -/
theorem breaker_characterised_pole :
    (breaker 2 30 [.failure 1, .failure 0]).state 5 = .open_ ∧
      Probes (breaker 2 30 [.failure 1, .failure 0]) 31 ∧
      ¬Probes (breaker 2 30 [.allow 31, .failure 1, .failure 0]) 32 := by
  have probed : Probes (breaker 2 30 [.failure 1, .failure 0]) 31 := by
    unfold Probes
    decide +kernel
  refine ⟨by decide +kernel, probed, ?_⟩
  have all := breaker_characterised 2 30 [.allow 31, .failure 1, .failure 0] 32 (by decide)
    (by simp [Event.time]; norm_num)
  exact all.2.2.2.2 [] [.failure 1, .failure 0] 31 rfl nofun probed

end OpsAssist.Gateway.BreakerHistory
