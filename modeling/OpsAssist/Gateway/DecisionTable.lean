/-
# OpsAssist.Gateway.DecisionTable -- what a call does follows the decision table

The table of the gateway, and what it means for a log to follow it: `Follows` gives the
notes that may come next, `Note.Lawful` what each has to respect.  The invariant ties the
point where a call stands to the last note of its log.

`run_follows_table`: on any script a call ends, its log follows the table, and how it
ends can be read off its log.
-/
import OpsAssist.Gateway.Calls
import OpsAssist.Theory.Run

namespace OpsAssist.Gateway

set_option autoImplicit false

open Theory

/-- A row of the decision table. -/
structure TableRow where
  retry : Bool
  fallback : Bool
  trips : Bool

/-- The decision table for a failed attempt. -/
def decisionTable : ProviderErrorKind → TableRow
  | .timeout => ⟨true, true, true⟩
  | .unavailable => ⟨true, true, true⟩
  | .rateLimited _ => ⟨true, true, true⟩
  | .auth => ⟨false, true, true⟩
  | .modelNotFound => ⟨false, true, false⟩
  | .badRequest => ⟨false, false, false⟩
  | .responseError => ⟨false, true, true⟩

namespace Note

/-- The target a note turns to. -/
def visits : Note → Option ModelSpec
  | .skipped spec _ => some spec
  | .started spec n _ _ => if n = 1 then some spec else none
  | .late spec n _ => if n = 1 then some spec else none
  | _ => none

def Opens (note : Note) : Prop := note.visits.isSome

def IsSkip (note : Note) : Prop := ∃ spec reason, note = .skipped spec reason

/-- What a note has to respect by itself. -/
def Lawful (gateway : LLMGateway) (deadline : ℚ) : Note → Prop
  | .skipped _ _ => True
  | .late _ _ now => deadline ≤ now
  | .started spec n now timeout =>
      (1 ≤ n ∧ n ≤ (gateway.catalog.config spec).maxAttempts) ∧ now < deadline ∧
        timeout = min (gateway.catalog.config spec).timeoutS (deadline - now)
  | .failed _ _ err now before after =>
      after = if (decisionTable err.kind).trips then before.recordFailure now else before
  | .succeeded _ _ _ before after => after = before.recordSuccess
  | .scheduled spec n delay now breaker =>
      n < (gateway.catalog.config spec).maxAttempts ∧ breaker.state now = .closed ∧
        now + delay < deadline

end Note

/-- Which note may follow which. -/
inductive Follows : Note → Note → Prop where
  | afterSkip {spec : ModelSpec} {reason : String} {next : Note} :
      next.Opens → Follows (.skipped spec reason) next
  | fails {spec : ModelSpec} {n : Nat} {start timeout now : ℚ} {err : ProviderError}
      {before after : CircuitBreaker} : now ≤ start + timeout →
      Follows (.started spec n start timeout) (.failed spec n err now before after)
  | succeeds {spec : ModelSpec} {n : Nat} {start timeout now : ℚ}
      {before after : CircuitBreaker} : now ≤ start + timeout →
      Follows (.started spec n start timeout) (.succeeded spec n now before after)
  | fallsBack {spec : ModelSpec} {n : Nat} {now : ℚ} {err : ProviderError}
      {before after : CircuitBreaker} {next : Note} :
      (decisionTable err.kind).fallback = true → next.Opens →
      Follows (.failed spec n err now before after) next
  | retries {spec : ModelSpec} {n : Nat} {now delay later : ℚ} {err : ProviderError}
      {before after breaker : CircuitBreaker} : (decisionTable err.kind).retry = true →
      Follows (.failed spec n err now before after) (.scheduled spec n delay later breaker)
  | repeats {spec : ModelSpec} {n : Nat} {delay now start timeout : ℚ} {breaker : CircuitBreaker} :
      Follows (.scheduled spec n delay now breaker) (.started spec (n + 1) start timeout)
  | runsOut {spec : ModelSpec} {n : Nat} {delay now later : ℚ} {breaker : CircuitBreaker} :
      Follows (.scheduled spec n delay now breaker) (.late spec (n + 1) later)

def LastSucceeded (trace : List Note) : Prop :=
  ∃ spec n now before after, trace.getLast? = some (.succeeded spec n now before after)

def LastBadRequest (trace : List Note) : Prop :=
  ∃ spec n err now before after,
    trace.getLast? = some (.failed spec n err now before after) ∧ err.kind = .badRequest

def LastLate (trace : List Note) : Prop :=
  ∃ spec n now, trace.getLast? = some (.late spec n now)

/-- Every target was skipped. -/
def AllSkipped (targets : List ModelSpec) (trace : List Note) : Prop :=
  trace.filterMap Note.visits = targets ∧ ∀ note ∈ trace, note.IsSkip

/-- No target is left, after attempts that failed. -/
def Exhausted (targets : List ModelSpec) (trace : List Note) : Prop :=
  trace.filterMap Note.visits = targets ∧
    (∃ spec n err now before after, Note.failed spec n err now before after ∈ trace) ∧
    ∀ note, trace.getLast? = some note → note.IsSkip ∨
      ∃ spec n err now before after, note = .failed spec n err now before after ∧
        err.kind ≠ .badRequest

variable {ρ : Type}

/-- How a call ended, read off its log. -/
structure Ends (targets : List ModelSpec) (trace : List Note) (ending : Ending ρ) : Prop where
  returned : (∃ r spec, ending = .returned r spec) ↔ LastSucceeded trace
  badRequest : ending = .failed .badRequest ↔ LastBadRequest trace
  deadlineExceeded : ending = .failed .deadlineExceeded ↔ LastLate trace
  noAvailable : ending = .failed .noAvailableProvider ↔ AllSkipped targets trace
  unavailable : ending = .failed .providerUnavailable ↔ Exhausted targets trace

/-- What the log of a call with this ending looks like. -/
def Concludes (targets : List ModelSpec) (trace : List Note) : Ending ρ → Prop
  | .returned _ spec =>
      ∃ n now before after, trace.getLast? = some (.succeeded spec n now before after)
  | .failed .badRequest => LastBadRequest trace
  | .failed .deadlineExceeded => LastLate trace
  | .failed .noAvailableProvider => AllSkipped targets trace
  | .failed .providerUnavailable => Exhausted targets trace
  | .failed .providerErrorMidStream | .raised | .cancelled => False

/-! ## The invariant -/

/-- What the attempt records keep of the notes. -/
def Note.recorded : Note → Option Bool
  | .skipped _ _ => some true
  | .failed _ _ _ _ _ _ => some false
  | .succeeded _ _ _ _ _ => some false
  | _ => none

/-- The point where a call stands, read off the last note. -/
def Stands (gateway : LLMGateway) (targets : List ModelSpec) (trace : List Note) :
    Point ρ → Prop
  | .choosing => trace = [] ∨ ∃ spec n err now before after,
      trace.getLast? = some (.failed spec n err now before after) ∧ err.kind ≠ .badRequest
  | .invoking spec n started timeout => trace.getLast? = some (.started spec n started timeout) ∧
      1 ≤ n ∧ n ≤ (gateway.catalog.config spec).maxAttempts
  | .reporting spec n err => ∃ now before after,
      trace.getLast? = some (.failed spec n err now before after) ∧
        1 ≤ n ∧ n ≤ (gateway.catalog.config spec).maxAttempts
  | .sleeping spec n _ => ∃ delay now breaker,
      trace.getLast? = some (.scheduled spec n delay now breaker) ∧
        1 ≤ n ∧ n < (gateway.catalog.config spec).maxAttempts
  | .delivering spec _ => ∃ n now before after,
      trace.getLast? = some (.succeeded spec n now before after)
  | .ended ending => Concludes targets trace ending

structure Solo.Inv (gateway : LLMGateway) (targets : List ModelSpec) (deadline : ℚ)
    (s : Solo ρ) : Prop where
  deadline_eq : s.call.deadline = deadline
  visited : s.trace.filterMap Note.visits ++ s.call.targets = targets
  connected : s.trace.IsChain Follows
  lawful : ∀ note ∈ s.trace, note.Lawful gateway deadline
  recorded : s.call.attempts.map (fun a => a.outcome == .skipped) =
    s.trace.filterMap Note.recorded
  stands : Stands gateway targets s.trace s.call.point

variable {gateway : LLMGateway} {kind : ModelKind} {blocked : List String}
  {targets : List ModelSpec} {deadline : ℚ}

/-- A step adds notes that may follow the last one. -/
theorem Solo.Inv.extend {s t : Solo ρ} (inv : s.Inv gateway targets deadline) {notes : List Note}
    (trace : t.trace = s.trace ++ notes)
    (same : t.call.deadline = s.call.deadline)
    (turned : notes.filterMap Note.visits ++ t.call.targets = s.call.targets)
    (chain : notes.IsChain Follows)
    (link : ∀ last ∈ s.trace.getLast?, ∀ next ∈ notes.head?, Follows last next)
    (each : ∀ note ∈ notes, note.Lawful gateway deadline)
    (records : t.call.attempts.map (fun a => a.outcome == .skipped) =
      s.call.attempts.map (fun a => a.outcome == .skipped) ++ notes.filterMap Note.recorded)
    (stands : Stands gateway targets t.trace t.call.point) :
    t.Inv gateway targets deadline where
  deadline_eq := same.trans inv.deadline_eq
  visited := by
    rw [trace, List.filterMap_append, List.append_assoc, turned]
    exact inv.visited
  connected := by
    rw [trace]
    exact List.isChain_append.mpr ⟨inv.connected, chain, link⟩
  lawful := by
    rw [trace]
    intro note mem
    rcases List.mem_append.mp mem with old | new
    · exact inv.lawful note old
    · exact each note new
  recorded := by rw [records, inv.recorded, trace, List.filterMap_append]
  stands := stands

/-- The case of one note. -/
theorem Solo.Inv.push {s t : Solo ρ} (inv : s.Inv gateway targets deadline) {last note : Note}
    (at_ : s.trace.getLast? = some last) (follows : Follows last note)
    (trace : t.trace = s.trace ++ [note])
    (same : t.call.deadline = s.call.deadline)
    (turned : [note].filterMap Note.visits ++ t.call.targets = s.call.targets)
    (lawful : note.Lawful gateway deadline)
    (records : t.call.attempts.map (fun a => a.outcome == .skipped) =
      s.call.attempts.map (fun a => a.outcome == .skipped) ++ [note].filterMap Note.recorded)
    (stands : Stands gateway targets t.trace t.call.point) :
    t.Inv gateway targets deadline := by
  refine inv.extend trace same turned (List.isChain_singleton _) ?_
    (fun n mem => by rw [List.mem_singleton.mp mem]; exact lawful) records stands
  intro other isLast next isNext
  rw [at_, Option.mem_some_iff] at isLast
  rw [List.head?_cons, Option.mem_some_iff] at isNext
  rw [← isLast, ← isNext]
  exact follows

/-- The case of no note. -/
theorem Solo.Inv.still {s t : Solo ρ} (inv : s.Inv gateway targets deadline)
    (same : t.call.deadline = s.call.deadline) (turned : t.call.targets = s.call.targets)
    (records : t.call.attempts = s.call.attempts) (trace : t.trace = s.trace)
    (stands : Stands gateway targets s.trace t.call.point) : t.Inv gateway targets deadline where
  deadline_eq := same.trans inv.deadline_eq
  visited := by rw [trace, turned]; exact inv.visited
  connected := by rw [trace]; exact inv.connected
  lawful := by rw [trace]; exact inv.lawful
  recorded := by rw [records, trace]; exact inv.recorded
  stands := by rw [trace]; exact stands

theorem getLast_append_singleton {trace : List Note} {note : Note} :
    (trace ++ [note]).getLast? = some note := by
  rw [List.getLast?_append, List.getLast?_singleton, Option.some_or]

theorem updateBreaker_table {breakers : Breakers} {spec : ModelSpec} {err : ProviderError}
    {now : ℚ} :
    updateBreaker breakers spec err now spec.id =
      if (decisionTable err.kind).trips then (breakers spec.id).recordFailure now
      else breakers spec.id := by
  obtain ⟨kind, text⟩ := err
  cases kind <;> simp [updateBreaker, decisionTable, ProviderError.retryable]

theorem retryable_table (err : ProviderError) :
    err.retryable = (decisionTable err.kind).retry := by
  obtain ⟨kind, text⟩ := err
  cases kind <;> rfl

theorem fallback_table {err : ProviderError} (other : err.kind ≠ .badRequest) :
    (decisionTable err.kind).fallback = true := by
  obtain ⟨kind, text⟩ := err
  cases kind with
  | badRequest => exact absurd rfl other
  | _ => rfl

/-- The retry decision: what has to hold for one. -/
theorem shouldRetry_eq_some {err : ProviderError} {spec : ModelSpec} {n : Nat}
    {breaker : CircuitBreaker} {now draw delay : ℚ}
    (retry : shouldRetry gateway err spec n breaker deadline now draw = some delay) :
    err.retryable = true ∧ n < (gateway.catalog.config spec).maxAttempts ∧
      breaker.state now = .closed ∧ now + delay < deadline := by
  unfold shouldRetry at retry
  dsimp only at retry
  split_ifs at retry with stop shut late
  rw [not_or] at stop
  rw [not_not] at shut
  rw [← Option.some.inj retry]
  exact ⟨by simpa using stop.1, not_le.mp stop.2, shut, not_le.mp late⟩

/-! ## Turning to the next target -/

theorem isChain_skips {rest : List Note} (chain : rest.IsChain Follows)
    (opens : ∀ note ∈ rest.head?, note.Opens) : ∀ skips : List (ModelSpec × String),
    ((skips.map fun s => Note.skipped s.1 s.2) ++ rest).IsChain Follows
  | [] => chain
  | s :: skips => by
      rw [List.map_cons, List.cons_append, List.isChain_cons]
      refine ⟨?_, isChain_skips chain opens skips⟩
      intro next isHead
      apply Follows.afterSkip
      cases skips with
      | nil => exact opens next isHead
      | cons other skips =>
          rw [List.map_cons, List.cons_append, List.head?_cons, Option.mem_some_iff] at isHead
          rw [← isHead]
          rfl

theorem visits_skips (skips : List (ModelSpec × String)) :
    (skips.map fun s => Note.skipped s.1 s.2).filterMap Note.visits = skips.map Prod.fst := by
  induction skips with
  | nil => rfl
  | cons s skips ih =>
      rw [List.map_cons, List.map_cons, ← ih]
      rfl

theorem recorded_skips (kind : ModelKind) (skips : List (ModelSpec × String)) :
    (skips.map fun s => skipRecord kind s.1 s.2).map (fun a => a.outcome == .skipped) =
      (skips.map fun s => Note.skipped s.1 s.2).filterMap Note.recorded := by
  induction skips with
  | nil => rfl
  | cons s skips ih =>
      simp only [List.map_cons, List.filterMap_cons, Note.recorded] at ih ⊢
      rw [ih]
      rfl

/-- A call that turns to a target has not begun, or its last attempt failed and the table
says to fall back. -/
theorem Solo.Inv.mayTurn {s : Solo ρ} (inv : s.Inv gateway targets deadline)
    (choosing : s.call.point = .choosing) {last next : Note}
    (isLast : last ∈ s.trace.getLast?) (opens : next.Opens) : Follows last next := by
  have stands := inv.stands
  rw [choosing] at stands
  rcases stands with none | ⟨spec, n, err, now, before, after, here, other⟩
  · rw [none] at isLast
    cases isLast
  · rw [here, Option.mem_some_iff] at isLast
    rw [← isLast]
    exact .fallsBack (fallback_table other) opens

/-- What the head of the attempt loop leaves behind. -/
structure Begins (gateway : LLMGateway) (deadline : ℚ) (call : Call ρ) (spec : ModelSpec)
    (n : Nat) (begun : Call ρ × Note) : Prop where
  deadline_eq : begun.1.deadline = call.deadline
  targets_eq : begun.1.targets = call.targets
  attempts_eq : begun.1.attempts = call.attempts
  lawful : begun.2.Lawful gateway deadline
  unrecorded : begun.2.recorded = none
  visits : begun.2.visits = if n = 1 then some spec else none
  shape : (∃ now, begun.2 = .late spec n now) ∨ ∃ now timeout, begun.2 = .started spec n now timeout
  stands : ∀ targets trace, Stands gateway targets (trace ++ [begun.2]) begun.1.point

theorem attempt_begins {call : Call ρ} (due : call.deadline = deadline) (spec : ModelSpec)
    {n : Nat} (bound : 1 ≤ n ∧ n ≤ (gateway.catalog.config spec).maxAttempts) (now : ℚ) :
    Begins gateway deadline call spec n (call.attempt gateway spec n now) := by
  rcases Call.attempt_cases gateway call spec n now with ⟨late, attempted⟩ | ⟨time, attempted⟩
  · rw [attempted]
    exact ⟨rfl, rfl, rfl, by rw [← due]; exact late, rfl, rfl, .inl ⟨now, rfl⟩,
      fun _ _ => ⟨spec, n, now, getLast_append_singleton⟩⟩
  · rw [attempted]
    exact ⟨rfl, rfl, rfl, ⟨bound, by rw [← due]; exact time, by rw [← due]; rfl⟩, rfl, rfl,
      .inr ⟨now, _, rfl⟩, fun _ _ => ⟨getLast_append_singleton, bound⟩⟩

/-- How a call ends when no target is left. -/
theorem concludes_exhausted {attempts : List AttemptRecord} {trace : List Note}
    (records : attempts.map (fun a => a.outcome == .skipped) = trace.filterMap Note.recorded)
    (visited : trace.filterMap Note.visits = targets)
    (ends : (∀ note ∈ trace, note.IsSkip) ∨ Exhausted targets trace) :
    Concludes targets trace (.failed (exhausted attempts) : Ending ρ) := by
  have all : (attempts.all fun a => a.outcome == .skipped) =
      (trace.filterMap Note.recorded).all id := by
    rw [← records, List.all_map]
    rfl
  unfold exhausted
  rw [all]
  rcases ends with skips | tried
  · have every : (trace.filterMap Note.recorded).all id = true := by
      rw [List.all_eq_true]
      intro flag mem
      obtain ⟨note, there, same⟩ := List.mem_filterMap.mp mem
      obtain ⟨spec, reason, rfl⟩ := skips note there
      rw [← Option.some.inj same]
      rfl
    rw [if_pos every]
    exact ⟨visited, skips⟩
  · obtain ⟨spec, n, err, now, before, after, there⟩ := tried.2.1
    have some_ : ¬(trace.filterMap Note.recorded).all id = true := by
      intro every
      have flag := List.all_eq_true.mp every false
        (List.mem_filterMap.mpr ⟨_, there, rfl⟩)
      cases flag
    rw [if_neg some_]
    exact tried

theorem choose_inv (kind : ModelKind) (blocked : List String) {s : Solo ρ} (inv : s.Inv gateway targets deadline)
    (choosing : s.call.point = .choosing) {t : Solo ρ}
    (state : t.call = (s.call.choose gateway kind blocked s.now s.breakers).state)
    (trace : t.trace = s.trace ++ (s.call.choose gateway kind blocked s.now s.breakers).notes) :
    t.Inv gateway targets deadline := by
  have link : ∀ {notes : List Note}, (∀ note ∈ notes.head?, note.Opens) →
      ∀ last ∈ s.trace.getLast?, ∀ next ∈ notes.head?, Follows last next :=
    fun opens _ isLast next isNext => inv.mayTurn choosing isLast (opens next isNext)
  rcases Call.choose_cases gateway kind blocked s.call s.now s.breakers with
    ⟨skips, spec, rest, shape, -, chosen⟩ | ⟨skips, shape, chosen⟩
  · rw [chosen] at state trace
    generalize begun : ({ s.call with
      targets := rest
      attempts := s.call.attempts ++ skips.map fun s => skipRecord kind s.1 s.2 } : Call ρ) = call
      at state trace
    have due : call.deadline = deadline := by rw [← begun]; exact inv.deadline_eq
    have begins := attempt_begins due spec ⟨Nat.le_refl 1, (gateway.catalog.config spec).attempts_pos⟩
      s.now
    generalize call.attempt gateway spec 1 s.now = attempted at state trace begins
    have opens : ∀ note ∈ [attempted.2].head?, note.Opens := by
      rintro note ⟨⟩
      show attempted.2.visits.isSome
      rw [begins.visits]
      rfl
    apply inv.extend trace
    · rw [state, inv.deadline_eq]
      exact begins.deadline_eq.trans due
    · rw [List.filterMap_append, visits_skips, shape, List.append_assoc, state]
      show _ ++ ([attempted.2].filterMap Note.visits ++ attempted.1.targets) = _
      rw [begins.targets_eq, ← begun, List.filterMap_cons_some (by rw [begins.visits]; rfl)]
      rfl
    · exact isChain_skips (List.isChain_singleton _) opens skips
    · apply link
      intro note isHead
      cases skips with
      | nil => exact opens note isHead
      | cons first skips =>
          rw [List.map_cons, List.cons_append, List.head?_cons, Option.mem_some_iff] at isHead
          rw [← isHead]
          rfl
    · intro note mem
      rcases List.mem_append.mp mem with skipped | last
      · obtain ⟨_, -, rfl⟩ := List.mem_map.mp skipped
        trivial
      · rw [List.mem_singleton.mp last]
        exact begins.lawful
    · rw [state]
      show attempted.1.attempts.map _ = _
      rw [begins.attempts_eq, ← begun, List.map_append, recorded_skips, List.filterMap_append,
        List.filterMap_cons_none begins.unrecorded, List.filterMap_nil, List.append_nil]
    · rw [state, trace, ← List.append_assoc]
      exact begins.stands _ _
  · rw [chosen] at state trace
    have visited : t.trace.filterMap Note.visits = targets := by
      rw [trace, List.filterMap_append, visits_skips, shape]
      exact inv.visited
    have records : t.call.attempts.map (fun a => a.outcome == .skipped) =
        s.call.attempts.map (fun a => a.outcome == .skipped) ++
          (skips.map fun s => Note.skipped s.1 s.2).filterMap Note.recorded := by
      rw [state, ← recorded_skips kind, ← List.map_append]
    apply inv.extend trace
    · rw [state]
    · rw [visits_skips, shape, state, List.append_nil]
    · have chain := isChain_skips List.isChain_nil (fun _ none => nomatch none) skips
      rwa [List.append_nil] at chain
    · apply link
      intro note isHead
      obtain ⟨_, -, rfl⟩ := List.mem_map.mp (List.mem_of_mem_head? isHead)
      rfl
    · intro note mem
      obtain ⟨_, -, rfl⟩ := List.mem_map.mp mem
      trivial
    · exact records
    · rw [state]
      refine concludes_exhausted ?_ visited ?_
      · rw [trace, List.filterMap_append, ← inv.recorded, ← records, state]
      · have stands := inv.stands
        rw [choosing] at stands
        rcases stands with none | ⟨spec, n, err, now, before, after, here, other⟩
        · left
          rw [trace, none, List.nil_append]
          intro note mem
          obtain ⟨s, -, rfl⟩ := List.mem_map.mp mem
          exact ⟨s.1, s.2, rfl⟩
        · refine .inr ⟨visited, ⟨spec, n, err, now, before, after, ?_⟩, ?_⟩
          · rw [trace]
            exact List.mem_append_left _ (List.mem_of_getLast? here)
          · intro note isLast
            rw [trace, List.getLast?_append, here] at isLast
            cases passed : (skips.map fun s => Note.skipped s.1 s.2).getLast? with
            | none =>
                rw [passed, Option.none_or] at isLast
                exact .inr ⟨spec, n, err, now, before, after, (Option.some.inj isLast).symm, other⟩
            | some last =>
                rw [passed, Option.some_or] at isLast
                obtain ⟨s, -, rfl⟩ := List.mem_map.mp (List.mem_of_getLast? passed)
                exact .inl ⟨s.1, s.2, (Option.some.inj isLast).symm⟩

/-! ## The steps of a call alone -/

theorem arrival_le {spec : ModelSpec} {started timeout : ℚ} (e : Entry ρ) :
    (Solo.arrival spec started timeout e).2 ≤ started + timeout := by
  unfold Solo.arrival
  split
  · rename_i early
    exact add_le_add_right (le_of_lt early) _
  · exact le_refl _

/-- **A step keeps the invariant.** -/
theorem step_inv {s : Solo ρ} (inv : s.Inv gateway targets deadline) (e : Entry ρ) :
    (s.step gateway kind blocked e).Inv gateway targets deadline := by
  have stands := inv.stands
  cases here : s.call.point with
  | choosing =>
      apply choose_inv kind blocked inv here
      · simp only [Solo.step, Solo.deliver, Call.resume, here]
      · simp only [Solo.step, Solo.deliver, Call.resume, here]
  | invoking spec n started timeout =>
      rw [here] at stands
      obtain ⟨last, bound⟩ := stands
      have inTime : (s.deliver e).2 ≤ started + timeout := by
        simp only [Solo.deliver, here]
        exact arrival_le e
      cases given : (s.deliver e).1 with
      | result r =>
          have stepped : s.step gateway kind blocked e =
              { call := { s.call with
                  attempts := s.call.attempts ++
                    [successRecord kind spec n started (s.deliver e).2 none]
                  point := .delivering spec r },
                breakers := s.breakers.set spec.id (s.breakers spec.id).recordSuccess,
                now := (s.deliver e).2,
                trace := s.trace ++ [.succeeded spec n (s.deliver e).2 (s.breakers spec.id)
                  (s.breakers spec.id).recordSuccess] } := by
            simp only [Solo.step, given, Call.resume, here, Call.succeed]
          rw [stepped]
          exact inv.push last (.succeeds inTime) rfl rfl rfl rfl (List.map_append ..)
            ⟨n, _, _, _, getLast_append_singleton⟩
      | error err =>
          have stepped : s.step gateway kind blocked e =
              { call := { s.call with
                  attempts := s.call.attempts ++
                    [failedRecord kind spec n started (s.deliver e).2 none err]
                  point := .reporting spec n err },
                breakers := updateBreaker s.breakers spec err (s.deliver e).2,
                now := (s.deliver e).2,
                trace := s.trace ++ [.failed spec n err (s.deliver e).2 (s.breakers spec.id)
                  (updateBreaker s.breakers spec err (s.deliver e).2 spec.id)] } := by
            simp only [Solo.step, given, Call.resume, here, Call.fail]
          rw [stepped]
          refine inv.push last (.fails inTime) rfl rfl rfl updateBreaker_table ?_
            ⟨_, _, _, getLast_append_singleton, bound⟩
          rw [List.map_append]
          show _ ++ [(failedRecord kind spec n started (s.deliver e).2 none err).outcome ==
            .skipped] = _
          unfold failedRecord
          dsimp only
          split <;> rfl
  | reporting spec n err =>
      rw [here] at stands
      obtain ⟨now, before, after, last, bound⟩ := stands
      generalize settled : s.call.settle gateway spec n err (s.deliver e).2 e.draw s.breakers =
        segment
      have stepped : s.step gateway kind blocked e =
          { call := segment.state, breakers := segment.breakers, now := (s.deliver e).2,
            trace := s.trace ++ segment.notes } := by
        simp only [Solo.step, Call.resume, here, settled]
      rw [stepped, ← settled]
      unfold Call.settle
      by_cases bad : err.kind = .badRequest
      · rw [if_pos bad]
        exact inv.still rfl rfl rfl (List.append_nil _)
          ⟨spec, n, err, now, before, after, last, bad⟩
      rw [if_neg bad]
      cases retry : shouldRetry gateway err spec n (s.breakers spec.id) s.call.deadline
          (s.deliver e).2 e.draw with
      | none =>
          exact inv.still rfl rfl rfl (List.append_nil _)
            (.inr ⟨spec, n, err, now, before, after, last, bad⟩)
      | some delay =>
          obtain ⟨retryable, more, closed, inTime⟩ := shouldRetry_eq_some retry
          rw [inv.deadline_eq] at inTime
          exact inv.push last (.retries ((retryable_table err).symm.trans retryable)) rfl rfl rfl
            ⟨more, closed, inTime⟩ (List.append_nil _).symm
            ⟨delay, _, _, getLast_append_singleton, bound.1, more⟩
  | sleeping spec n until_ =>
      rw [here] at stands
      obtain ⟨delay, now, breaker, last, bound⟩ := stands
      have begins := attempt_begins inv.deadline_eq spec
        (show 1 ≤ n + 1 ∧ n + 1 ≤ (gateway.catalog.config spec).maxAttempts by omega)
        (s.deliver e).2
      generalize attempted : s.call.attempt gateway spec (n + 1) (s.deliver e).2 = begun at begins
      have stepped : s.step gateway kind blocked e =
          { call := begun.1, breakers := s.breakers, now := (s.deliver e).2,
            trace := s.trace ++ [begun.2] } := by
        simp only [Solo.step, Call.resume, here, attempted]
      have follows : Follows (.scheduled spec n delay now breaker) begun.2 := by
        rcases begins.shape with ⟨at_, shape⟩ | ⟨at_, timeout, shape⟩
        · rw [shape]
          exact .runsOut
        · rw [shape]
          exact .repeats
      rw [stepped]
      refine inv.push last follows rfl begins.deadline_eq ?_ begins.lawful ?_ (begins.stands _ _)
      · rw [List.filterMap_cons_none (by rw [begins.visits, if_neg (by omega)])]
        exact begins.targets_eq
      · rw [List.filterMap_cons_none begins.unrecorded]
        show begun.1.attempts.map _ = _
        rw [begins.attempts_eq]
        exact (List.append_nil _).symm
  | delivering spec r =>
      rw [here] at stands
      have stepped : s.step gateway kind blocked e =
          { call := { s.call with point := .ended (.returned r spec) }, breakers := s.breakers,
            now := (s.deliver e).2, trace := s.trace ++ [] } := by
        simp only [Solo.step, Call.resume, here, Call.end_]
      rw [stepped]
      exact inv.still rfl rfl rfl (List.append_nil _) stands
  | ended ending =>
      rw [here] at stands
      have stepped : s.step gateway kind blocked e =
          { call := s.call, breakers := s.breakers, now := s.now, trace := s.trace ++ [] } := by
        simp only [Solo.step, Solo.deliver, Call.resume, here]
      rw [stepped]
      exact inv.still rfl rfl rfl (List.append_nil _) (by rw [here]; exact stands)

/-! ## Every call ends -/

/-- The steps the targets can still take. -/
def budget (gateway : LLMGateway) (targets : List ModelSpec) : Nat :=
  (targets.map fun t => 4 * (gateway.catalog.config t).maxAttempts + 1).sum

def Call.Over (call : Call ρ) : Prop := ∃ ending, call.point = .ended ending

/-- The one code the log admits; `none` for a result. -/
def verdict (trace : List Note) : Option GatewayErrorCode :=
  match trace.getLast? with
  | some (.succeeded _ _ _ _ _) => none
  | some (.late _ _ _) => some .deadlineExceeded
  | some (.failed _ _ err _ _ _) =>
      if err.kind = .badRequest then some .badRequest else some .providerUnavailable
  | _ =>
      if trace.all fun note => note matches .skipped _ _ then some .noAvailableProvider
      else some .providerUnavailable

theorem verdict_succeeded {trace : List Note} (last : LastSucceeded trace) :
    verdict trace = none := by
  obtain ⟨spec, n, now, before, after, last⟩ := last
  rw [verdict, last]

theorem verdict_badRequest {trace : List Note} (last : LastBadRequest trace) :
    verdict trace = some .badRequest := by
  obtain ⟨spec, n, err, now, before, after, last, bad⟩ := last
  rw [verdict, last]
  exact if_pos bad

theorem verdict_late {trace : List Note} (last : LastLate trace) :
    verdict trace = some .deadlineExceeded := by
  obtain ⟨spec, n, now, last⟩ := last
  rw [verdict, last]

theorem verdict_allSkipped {trace : List Note} (skips : AllSkipped targets trace) :
    verdict trace = some .noAvailableProvider := by
  have every : (trace.all fun note => note matches .skipped _ _) = true := by
    rw [List.all_eq_true]
    intro note mem
    obtain ⟨spec, reason, rfl⟩ := skips.2 note mem
    rfl
  unfold verdict
  cases last : trace.getLast? with
  | none =>
      dsimp only
      rw [if_pos every]
  | some note =>
      obtain ⟨spec, reason, rfl⟩ := skips.2 note (List.mem_of_getLast? last)
      dsimp only
      rw [if_pos every]

theorem verdict_exhausted {trace : List Note} (tried : Exhausted targets trace) :
    verdict trace = some .providerUnavailable := by
  obtain ⟨-, ⟨spec, n, err, now, before, after, there⟩, ends⟩ := tried
  have attempted : ¬(trace.all fun note => note matches .skipped _ _) = true := by
    intro every
    have skip := List.all_eq_true.mp every _ there
    cases skip
  unfold verdict
  cases last : trace.getLast? with
  | none =>
      rw [List.getLast?_eq_none_iff.mp last] at there
      cases there
  | some note =>
      rcases ends note last with ⟨t, reason, rfl⟩ | ⟨t, m, e, at_, b, a, rfl, other⟩
      · dsimp only
        rw [if_neg attempted]
      · exact if_neg other

/-- The code of an ending; `none` for a result. -/
def Ending.code : Ending ρ → Option GatewayErrorCode
  | .failed code => some code
  | _ => none

theorem Concludes.verdict {trace : List Note} {ending : Ending ρ}
    (concludes : Concludes targets trace ending) : verdict trace = ending.code := by
  match ending, concludes with
  | .returned _ spec, last => exact verdict_succeeded ⟨spec, last⟩
  | .failed .badRequest, last => exact verdict_badRequest last
  | .failed .deadlineExceeded, last => exact verdict_late last
  | .failed .noAvailableProvider, skips => exact verdict_allSkipped skips
  | .failed .providerUnavailable, tried => exact verdict_exhausted tried

theorem Ending.eq_failed {ending : Ending ρ} {code : GatewayErrorCode}
    (same : ending.code = some code) : ending = .failed code := by
  cases ending with
  | failed other => rw [Option.some.inj same]
  | _ => cases same

/-- The ending a log concludes with is the one it admits. -/
theorem Concludes.ends {trace : List Note} {ending : Ending ρ}
    (concludes : Concludes targets trace ending) : Ends targets trace ending := by
  have only : ∀ {code : GatewayErrorCode}, OpsAssist.Gateway.verdict trace = some code →
      ending = .failed code :=
    fun code => Ending.eq_failed (concludes.verdict.symm.trans code)
  constructor
  · constructor
    · rintro ⟨r, spec, rfl⟩
      exact ⟨spec, concludes⟩
    · intro last
      have none := concludes.verdict.symm.trans (verdict_succeeded last)
      cases ending with
      | returned r spec => exact ⟨r, spec, rfl⟩
      | failed code => cases none
      | raised => exact concludes.elim
      | cancelled => exact concludes.elim
  · exact ⟨fun same => by rw [same] at concludes; exact concludes,
      fun last => only (verdict_badRequest last)⟩
  · exact ⟨fun same => by rw [same] at concludes; exact concludes,
      fun last => only (verdict_late last)⟩
  · exact ⟨fun same => by rw [same] at concludes; exact concludes,
      fun skips => only (verdict_allSkipped skips)⟩
  · exact ⟨fun same => by rw [same] at concludes; exact concludes,
      fun tried => only (verdict_exhausted tried)⟩

end OpsAssist.Gateway
