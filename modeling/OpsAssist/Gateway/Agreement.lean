/-
# OpsAssist.Gateway.Agreement -- one decision table, implemented twice

`stream_chat` and `_run` work through a chain by the same rules in two loops.  A script says how
each attempt would end and how long what surrounds it takes, for both; closing a provider's stream
takes no time.  `InStep` relates a stream to a call until the first token, `recovers` says from the
script alone that the model a chain begins with serves it after a failure or a refusal of its own.

`stream_agrees_iff`: a stream that fails only before its first token agrees with the call if and
only if the script does not recover.  Pole: `retry_is_no_fallback`.
-/
import OpsAssist.Gateway.DecisionTable
import OpsAssist.Gateway.StreamGrammar

namespace OpsAssist.Gateway

set_option autoImplicit false

open Theory

/-! ## Scripts -/

/-- How an attempt would end, how long it and its record take, how much longer than asked the
sleep after it lasts, and the draw for that sleep. -/
structure Trial where
  fault : Option ProviderErrorKind := none
  duration : ℚ := 0
  recording : ℚ := 0
  oversleep : ℚ := 0
  draw : ℚ := 0

/-- What an attempt record tells besides its times and texts. -/
structure Tally where
  modelId : String
  attempt : Nat
  outcome : AttemptOutcome
deriving DecidableEq

def AttemptRecord.tally (a : AttemptRecord) : Tally :=
  { modelId := a.modelId, attempt := a.attempt, outcome := a.outcome }

/-- The attempts that were started. -/
def startedCount (attempts : List AttemptRecord) : Nat :=
  (attempts.map AttemptRecord.tally).countP fun t => t.outcome != .skipped

section

variable {ρ : Type}

def Outcome.fault : Outcome ρ → Option ProviderErrorKind
  | .result _ => none
  | .error err => some err.kind

def Arrival.fault : Arrival → Option ProviderErrorKind
  | .item _ => none
  | .exhausted => some .responseError
  | .error err => some err.kind

/-- The script speaks where the call waits for an attempt, its record or its sleep. -/
def Solo.Scripted (trials : Nat → Trial) (s : Solo ρ) (e : Entry ρ) : Prop :=
  let i := startedCount s.call.attempts
  match s.call.point with
  | .invoking _ _ _ _ => e.outcome.fault = (trials i).fault ∧ e.duration = (trials i).duration
  | .reporting _ _ _ => e.duration = (trials (i - 1)).recording ∧ e.draw = (trials (i - 1)).draw
  | .sleeping _ _ _ => e.duration = (trials (i - 1)).oversleep
  | _ => True

/-- The same for a stream; what comes after the first item is its own. -/
def StreamSolo.Scripted (trials : Nat → Trial) (s : StreamSolo) (e : StreamEntry) : Prop :=
  let i := startedCount s.stream.attempts
  match s.stream.point with
  | .opening _ _ => e.arrival.fault = (trials i).fault ∧ e.duration = (trials i).duration
  | .reporting _ _ _ => e.duration = (trials (i - 1)).recording ∧ e.draw = (trials (i - 1)).draw
  | .sleeping _ _ _ => e.duration = (trials (i - 1)).oversleep
  | .closing _ => e.duration = 0
  | _ => True

instance (trials : Nat → Trial) (s : Solo ρ) (e : Entry ρ) : Decidable (s.Scripted trials e) :=
  let i := startedCount s.call.attempts
  match here : s.call.point with
  | .invoking _ _ _ _ =>
      decidable_of_iff (e.outcome.fault = (trials i).fault ∧ e.duration = (trials i).duration)
        (by unfold Solo.Scripted; rw [here])
  | .reporting _ _ _ =>
      decidable_of_iff
        (e.duration = (trials (i - 1)).recording ∧ e.draw = (trials (i - 1)).draw)
        (by unfold Solo.Scripted; rw [here])
  | .sleeping _ _ _ =>
      decidable_of_iff (e.duration = (trials (i - 1)).oversleep)
        (by unfold Solo.Scripted; rw [here])
  | .choosing | .delivering _ _ | .ended _ =>
      decidable_of_iff True (by unfold Solo.Scripted; rw [here])

instance (trials : Nat → Trial) (s : StreamSolo) (e : StreamEntry) :
    Decidable (s.Scripted trials e) :=
  let i := startedCount s.stream.attempts
  match here : s.stream.point with
  | .opening _ _ =>
      decidable_of_iff (e.arrival.fault = (trials i).fault ∧ e.duration = (trials i).duration)
        (by unfold StreamSolo.Scripted; rw [here])
  | .reporting _ _ _ =>
      decidable_of_iff
        (e.duration = (trials (i - 1)).recording ∧ e.draw = (trials (i - 1)).draw)
        (by unfold StreamSolo.Scripted; rw [here])
  | .sleeping _ _ _ =>
      decidable_of_iff (e.duration = (trials (i - 1)).oversleep)
        (by unfold StreamSolo.Scripted; rw [here])
  | .closing _ =>
      decidable_of_iff (e.duration = 0) (by unfold StreamSolo.Scripted; rw [here])
  | .choosing | .announced _ _ _ | .passing _ _ | .waiting _ _ _ _ | .completing _ _ _ | .finished
  | .ended _ => decidable_of_iff True (by unfold StreamSolo.Scripted; rw [here])

/-- `ChatOutcome.fallback_used` -/
def fallbackUsed (attempts : List AttemptRecord) (spec : ModelSpec) : Bool :=
  attempts.any fun a => a.modelId != spec.id

/-- The model served and the flag a stream announces. -/
def StreamEvent.announced? : StreamEvent → Option (ModelSpec × Bool)
  | .started spec _ fallback => some (spec, fallback)
  | _ => none

/-- How a call or a stream ends. -/
inductive Verdict where
  | served (spec : ModelSpec)
  | failed (code : GatewayErrorCode)

def Ending.verdict : Ending ρ → Option Verdict
  | .returned _ spec => some (.served spec)
  | .failed code => some (.failed code)
  | .raised | .cancelled => none

def StreamEvent.verdict : StreamEvent → Option Verdict
  | .completed spec _ _ _ _ => some (.served spec)
  | .failed code _ _ _ => some (.failed code)
  | _ => none

/-- **The call and the stream agree.** -/
structure Agrees (s : Solo ρ) (ending : Ending ρ) (t : StreamSolo) : Prop where
  attempts : t.stream.attempts.map AttemptRecord.tally = s.call.attempts.map AttemptRecord.tally
  breakers : t.breakers = s.breakers
  verdict : (events t.trace).getLast?.bind StreamEvent.verdict = ending.verdict
  served : ∀ announced ∈ (events t.trace).filterMap StreamEvent.announced?,
    ending.verdict = some (.served announced.1)
  fallback : ∀ announced ∈ (events t.trace).filterMap StreamEvent.announced?,
    announced.2 = fallbackUsed s.call.attempts announced.1

/-- A failure after the first token. -/
def StreamEvent.breaks : StreamEvent → Bool
  | .failed _ _ begun _ => begun
  | _ => false

def StreamSolo.Unbroken (t : StreamSolo) : Prop := ∀ e ∈ events t.trace, e.breaks = false

/-! ## The condition -/

section Recovery

variable (gateway : LLMGateway) (blocked : List String) (deadline : ℚ) (trials : Nat → Trial)

/-- `asyncio.timeout` -/
def Trial.ends (trial : Trial) (now timeout : ℚ) : Option ProviderErrorKind × ℚ :=
  if trial.duration < timeout then (trial.fault, now + trial.duration)
  else (some .timeout, now + timeout)

/-- After the record of attempt `i` of the script: give up, go on to the `next` target or
`retry`. -/
def settleServes (spec : ModelSpec) (n i : Nat) (kind : ProviderErrorKind) (now : ℚ)
    (breakers : Breakers) (next retry : Nat → ℚ → Breakers → Bool) : Bool :=
  if kind = .badRequest then false
  else
    match shouldRetry gateway { kind } spec n (breakers spec.id) deadline now (trials i).draw with
    | none => next (i + 1) now breakers
    | some delay => retry (i + 1) (max now (now + delay) + (trials i).oversleep) breakers

/-- When attempt `i` of the script has ended; `again` when something came before it. -/
def replyServes (spec : ModelSpec) (n i : Nat) (ended : Option ProviderErrorKind × ℚ)
    (breakers : Breakers) (again : Bool) (next retry : Nat → ℚ → Breakers → Bool) : Bool :=
  match ended.1 with
  | none => again
  | some kind =>
      settleServes gateway deadline trials spec n i kind (ended.2 + (trials i).recording)
        (updateBreaker breakers spec { kind } ended.2) next retry

/-- Attempt `n` of a target, with so many left. -/
def attemptServes (spec : ModelSpec) (next : Nat → ℚ → Breakers → Bool) :
    Nat → Nat → Bool → Nat → ℚ → Breakers → Bool
  | 0, _, _, i, now, breakers => next i now breakers
  | left + 1, n, again, i, now, breakers =>
      if deadline ≤ now then false
      else
        replyServes gateway deadline trials spec n i
          ((trials i).ends now (min (gateway.catalog.config spec).timeoutS (deadline - now)))
          breakers again next (attemptServes spec next left (n + 1) true)

instance (provider : ModelSpec → Bool) (blocked : List String) (now : ℚ) (breakers : Breakers)
    (spec : ModelSpec) : Decidable (Admissible provider blocked now breakers spec) :=
  inferInstanceAs (Decidable (_ ∧ _ ∧ _))

/-- The targets that name this model, one after the other. -/
def targetsServe (modelId : String) : List ModelSpec → Bool → Nat → ℚ → Breakers → Bool
  | [], _, _, _, _ => false
  | spec :: rest, again, i, now, breakers =>
      if spec.id ≠ modelId then false
      else if Admissible gateway.isAvailable blocked now breakers spec then
        attemptServes gateway deadline trials spec (targetsServe modelId rest true)
          (gateway.catalog.config spec).maxAttempts 1 again i now
          (breakers.set spec.id ((breakers spec.id).admitted now))
      else targetsServe modelId rest true i now breakers

/-- **The model the chain begins with serves it, but not with the very first attempt.** -/
def recovers (targets : List ModelSpec) (now : ℚ) (breakers : Breakers) : Bool :=
  match targets with
  | [] => false
  | spec :: _ => targetsServe gateway blocked deadline trials spec.id targets false 0 now breakers

end Recovery

/-! ## The two loops in step -/

variable {gateway : LLMGateway} {blocked : List String} {trials : Nat → Trial}

/-- An error is told by its kind. -/
theorem updateBreaker_congr (breakers : Breakers) (spec : ModelSpec) {err err' : ProviderError}
    (same : err.kind = err'.kind) (now : ℚ) :
    updateBreaker breakers spec err now = updateBreaker breakers spec err' now := by
  unfold updateBreaker ProviderError.retryable
  rw [same]

theorem shouldRetry_congr {err err' : ProviderError} (same : err.kind = err'.kind)
    (spec : ModelSpec) (n : Nat) (breaker : CircuitBreaker) (deadline now draw : ℚ) :
    shouldRetry gateway err spec n breaker deadline now draw =
      shouldRetry gateway err' spec n breaker deadline now draw := by
  unfold shouldRetry ProviderError.retryable BackoffPolicy.delay
  rw [same]

/-- The same walk, where whatever is set up can chat. -/
theorem nextTarget_congr {provider provider' : ModelSpec → Bool} (now : ℚ) :
    ∀ {targets : List ModelSpec} (breakers : Breakers),
      (∀ t ∈ targets, provider t = provider' t) →
      nextTarget provider blocked now targets breakers =
        nextTarget provider' blocked now targets breakers
  | [], _, _ => rfl
  | spec :: rest, breakers, same => by
      have later : ∀ breakers, nextTarget provider blocked now rest breakers =
          nextTarget provider' blocked now rest breakers :=
        fun breakers => nextTarget_congr now breakers fun t mem => same t (List.mem_cons_of_mem _ mem)
      unfold nextTarget
      rw [same spec List.mem_cons_self]
      split
      · rfl
      · rw [later]

/-- Everything but the points. -/
structure Paired (s : Solo ρ) (t : StreamSolo) : Prop where
  now : t.now = s.now
  breakers : t.breakers = s.breakers
  targets : t.stream.targets = s.call.targets
  deadline : t.stream.deadline = s.call.deadline
  attempts : t.stream.attempts.map AttemptRecord.tally = s.call.attempts.map AttemptRecord.tally
  silent : events t.trace = []

/-- Points of the two loops that correspond. -/
def Alike : Point ρ → StreamPoint → Prop
  | .choosing, .choosing => True
  | .choosing, .closing none => True
  | .invoking spec n started timeout, .opening a timeout' => a = ⟨spec, n, started⟩ ∧ timeout' = timeout
  | .reporting spec n err, .reporting a err' false => a.spec = spec ∧ a.n = n ∧ err'.kind = err.kind
  | .sleeping spec n until_, .sleeping spec' n' until' => spec' = spec ∧ n' = n ∧ until' = until_
  | _, _ => False

structure InStep (s : Solo ρ) (t : StreamSolo) : Prop extends Paired s t where
  alike : Alike s.call.point t.stream.point

/-- The call has its reply and the stream its first item. -/
structure BothServed (s : Solo ρ) (t : StreamSolo) (spec : ModelSpec) (n : Nat) : Prop where
  call : ∃ r, s.call.point = .delivering spec r
  stream : ∃ a ttft item, t.stream.point = .announced a ttft item ∧ a.spec = spec ∧ a.n = n
  attempts : s.call.attempts.map AttemptRecord.tally =
    t.stream.attempts.map AttemptRecord.tally ++
      [{ modelId := spec.id, attempt := n, outcome := .success }]
  breakers : s.breakers = t.breakers.set spec.id (t.breakers spec.id).recordSuccess
  announced : ∃ route, events t.trace = [.started spec route !t.stream.attempts.isEmpty]

/-- Both have given up with the same code. -/
structure BothFailed (s : Solo ρ) (t : StreamSolo) : Prop where
  attempts : t.stream.attempts.map AttemptRecord.tally = s.call.attempts.map AttemptRecord.tally
  breakers : t.breakers = s.breakers
  ended : ∃ code message reported, s.call.point = .ended (.failed code) ∧
    t.stream.point = .finished ∧ events t.trace = [.failed code message false reported]

/-- The head of the attempt loops. -/
theorem Paired.attempt {s s' : Solo ρ} {t t' : StreamSolo} (paired : Paired s t) (spec : ModelSpec)
    (n : Nat) (call : s'.call = (s.call.attempt gateway spec n s.now).1)
    (breakers : s'.breakers = s.breakers) (now : s'.now = s.now)
    (stream : t'.stream = (t.stream.attempt gateway spec n t.now).1)
    (breakers' : t'.breakers = t.breakers) (now' : t'.now = t.now)
    (trace : t'.trace = t.trace ++ (t.stream.attempt gateway spec n t.now).2) :
    InStep s' t' ∨ BothFailed s' t' := by
  have quiet : ∀ notes, events (t.trace ++ notes) = events notes := by
    intro notes
    have split : events (t.trace ++ notes) = events t.trace ++ events notes := List.filterMap_append
    rw [split, paired.silent, List.nil_append]
  unfold Call.attempt at call
  unfold Stream.attempt at stream trace
  rw [paired.deadline, paired.now] at stream trace
  by_cases late : s.call.deadline - s.now ≤ 0
  · rw [if_pos late] at call stream trace
    right
    refine ⟨?_, ?_, .deadlineExceeded, "request deadline exceeded", t.stream.attempts, ?_, ?_, ?_⟩
    · rw [stream, call]
      exact paired.attempts
    · rw [breakers, breakers', paired.breakers]
    · rw [call]
    · rw [stream]
      rfl
    · rw [trace, quiet]
      rfl
  · rw [if_neg late] at call stream trace
    left
    refine ⟨⟨?_, ?_, ?_, ?_, ?_, ?_⟩, ?_⟩
    · rw [now, now', paired.now]
    · rw [breakers, breakers', paired.breakers]
    · rw [stream, call]
      exact paired.targets
    · rw [stream, call]
    · rw [stream, call]
      exact paired.attempts
    · rw [trace, quiet]
      rfl
    · rw [stream, call]
      exact ⟨rfl, rfl⟩

/-- `exhausted` looks at the outcomes only. -/
theorem exhausted_congr {attempts attempts' : List AttemptRecord}
    (same : attempts'.map AttemptRecord.tally = attempts.map AttemptRecord.tally) :
    exhausted attempts' = exhausted attempts := by
  have outcomes : ∀ l : List AttemptRecord, (l.all fun a => a.outcome == .skipped) =
      (l.map AttemptRecord.tally).all fun t => t.outcome == .skipped := by
    intro l
    rw [List.all_map]
    rfl
  unfold exhausted
  rw [outcomes, outcomes, same]

/-- Turning to the next target. -/
theorem Paired.choose {s s' : Solo ρ} {t t' : StreamSolo} (paired : Paired s t)
    (canChat : ∀ spec ∈ s.call.targets,
      gateway.isAvailable spec = true → gateway.chatProvider spec = true)
    (call : s'.call = (s.call.choose gateway .chat blocked s.now s.breakers).state)
    (breakers : s'.breakers = (s.call.choose gateway .chat blocked s.now s.breakers).breakers)
    (now : s'.now = s.now)
    (stream : t'.stream = (t.stream.choose gateway blocked t.now t.breakers).state)
    (breakers' : t'.breakers = (t.stream.choose gateway blocked t.now t.breakers).breakers)
    (now' : t'.now = t.now)
    (trace : t'.trace = t.trace ++ (t.stream.choose gateway blocked t.now t.breakers).notes) :
    InStep s' t' ∨ BothFailed s' t' := by
  have quiet : ∀ notes, events (t.trace ++ notes) = events notes := by
    intro notes
    have split : events (t.trace ++ notes) = events t.trace ++ events notes := List.filterMap_append
    rw [split, paired.silent, List.nil_append]
  have same : ∀ spec ∈ s.call.targets, gateway.chatProvider spec = gateway.isAvailable spec := by
    intro spec mem
    cases there : gateway.isAvailable spec with
    | true => exact canChat spec mem there
    | false =>
        unfold LLMGateway.isAvailable at there
        unfold LLMGateway.chatProvider
        rw [Option.isSome_eq_false_iff, Option.isNone_iff_eq_none] at there
        rw [there]
        rfl
  have walk : nextTarget gateway.chatProvider blocked t.now t.stream.targets t.breakers =
      nextTarget gateway.isAvailable blocked s.now s.call.targets s.breakers := by
    rw [paired.now, paired.targets, paired.breakers]
    exact nextTarget_congr s.now s.breakers same
  unfold Call.choose at call breakers
  unfold Stream.choose at stream breakers' trace
  rw [walk] at stream breakers' trace
  generalize nextTarget gateway.isAvailable blocked s.now s.call.targets s.breakers = choice at *
  have passed : (t.stream.attempts ++ choice.skips.map fun s => skipRecord .chat s.1 s.2).map
        AttemptRecord.tally =
      (s.call.attempts ++ choice.skips.map fun s => skipRecord .chat s.1 s.2).map
        AttemptRecord.tally := by
    rw [List.map_append, List.map_append, paired.attempts]
  dsimp only at call breakers stream breakers' trace
  cases found : choice.found with
  | none =>
      rw [found] at call breakers stream breakers' trace
      right
      refine ⟨?_, ?_, exhausted (s.call.attempts ++
          choice.skips.map fun s => skipRecord .chat s.1 s.2),
        "no model provider could serve the request",
        t.stream.attempts ++ choice.skips.map fun s => skipRecord .chat s.1 s.2, ?_, ?_, ?_⟩
      · rw [stream, call]
        exact passed
      · rw [breakers, breakers']
      · rw [call]
      · rw [stream]
        rfl
      · rw [trace, quiet]
        show events (_ ++ [_]) = _
        have split : ∀ front back : List StreamNote,
            events (front ++ back) = events front ++ events back := fun _ _ => List.filterMap_append
        rw [split, (skips_silent choice.skips).1, exhausted_congr passed]
        rfl
  | some next =>
      obtain ⟨spec, rest⟩ := next
      rw [found] at call breakers stream breakers' trace
      let s₀ : Solo ρ := { s with
        call := { s.call with
          targets := rest
          attempts := s.call.attempts ++ choice.skips.map fun s => skipRecord .chat s.1 s.2 }
        breakers := choice.breakers }
      let t₀ : StreamSolo := { t with
        stream := { t.stream with
          targets := rest
          attempts := t.stream.attempts ++ choice.skips.map fun s => skipRecord .chat s.1 s.2 }
        breakers := choice.breakers
        trace := t.trace ++ choice.skips.map fun s => StreamNote.note (.skipped s.1 s.2) }
      have ready : Paired s₀ t₀ :=
        ⟨paired.now, rfl, rfl, paired.deadline, passed, by
          rw [quiet]
          exact (skips_silent choice.skips).1⟩
      refine ready.attempt spec 1 call breakers now stream breakers' now' ?_
      rw [trace, List.append_assoc]

/-- Quiet so far. -/
theorem Paired.quiet {s : Solo ρ} {t : StreamSolo} (paired : Paired s t) (notes : List StreamNote) :
    events (t.trace ++ notes) = events notes := by
  have split : events (t.trace ++ notes) = events t.trace ++ events notes := List.filterMap_append
  rw [split, paired.silent, List.nil_append]

/-- An attempt fails for both. -/
theorem Paired.fail {s s' : Solo ρ} {t t' : StreamSolo} (paired : Paired s t) {spec : ModelSpec}
    {n : Nat} {started ceased : ℚ} {err err' : ProviderError} (same : err'.kind = err.kind)
    (call : s'.call = (s.call.fail .chat spec n started ceased err s.breakers).state)
    (breakers : s'.breakers = (s.call.fail .chat spec n started ceased err s.breakers).breakers)
    (now : s'.now = ceased)
    (stream : t'.stream = (t.stream.fail ⟨spec, n, started⟩ none ceased err' false t.breakers).state)
    (breakers' : t'.breakers =
      (t.stream.fail ⟨spec, n, started⟩ none ceased err' false t.breakers).breakers)
    (now' : t'.now = ceased)
    (trace : t'.trace = t.trace ++
      (t.stream.fail ⟨spec, n, started⟩ none ceased err' false t.breakers).notes) :
    InStep s' t' := by
  refine ⟨⟨now'.trans now.symm, ?_, ?_, ?_, ?_, ?_⟩, ?_⟩
  · rw [breakers, breakers']
    show updateBreaker t.breakers spec err' ceased = updateBreaker s.breakers spec err ceased
    rw [paired.breakers]
    exact updateBreaker_congr s.breakers spec same ceased
  · rw [stream, call]
    exact paired.targets
  · rw [stream, call]
    exact paired.deadline
  · rw [stream, call]
    show List.map _ (_ ++ [_]) = List.map _ (_ ++ [_])
    rw [List.map_append, List.map_append, paired.attempts]
    unfold failedRecord
    rw [same]
    rfl
  · rw [trace, paired.quiet]
    rfl
  · rw [stream, call]
    exact ⟨rfl, rfl, same⟩

/-- An attempt is answered for both. -/
theorem Paired.succeed {s s' : Solo ρ} {t t' : StreamSolo} (paired : Paired s t) {spec : ModelSpec}
    {n : Nat} {started ceased : ℚ} {r : ρ} {item : StreamItem}
    (call : s'.call = (s.call.succeed .chat spec n started ceased r s.breakers).state)
    (breakers : s'.breakers = (s.call.succeed .chat spec n started ceased r s.breakers).breakers)
    (stream : t'.stream =
      { t.stream with point := .announced ⟨spec, n, started⟩ (ceased - started) item })
    (breakers' : t'.breakers = t.breakers)
    (trace : t'.trace = t.trace ++ [.received spec n item,
      .event (.started spec t.stream.route !t.stream.attempts.isEmpty)]) :
    BothServed s' t' spec n := by
  refine ⟨⟨r, by rw [call]; rfl⟩, ⟨_, _, _, by rw [stream], rfl, rfl⟩, ?_, ?_, t.stream.route, ?_⟩
  · rw [stream, call]
    show List.map _ (_ ++ [_]) = _
    rw [List.map_append, paired.attempts]
    rfl
  · rw [breakers, breakers', paired.breakers]
    rfl
  · rw [trace, paired.quiet, stream]
    rfl

variable (gateway blocked) in
/-- An attempt ends the same way for both. -/
theorem InStep.reply {s : Solo ρ} {t : StreamSolo} (both : InStep s t) {spec : ModelSpec} {n : Nat}
    {started timeout : ℚ} (here : s.call.point = .invoking spec n started timeout)
    {e : Entry ρ} (scripted : s.Scripted trials e) {e' : StreamEntry}
    (scripted' : t.Scripted trials e') :
    InStep (s.step gateway .chat blocked e) (t.step gateway blocked e') ∨
      BothServed (s.step gateway .chat blocked e) (t.step gateway blocked e') spec n := by
  obtain ⟨a, timeout', there⟩ : ∃ a timeout', t.stream.point = .opening a timeout' := by
    have alike := both.alike
    rw [here] at alike
    cases point : t.stream.point <;> rw [point] at alike <;> first | exact ⟨_, _, rfl⟩ | exact alike.elim
  have alike := both.alike
  rw [here, there] at alike
  obtain ⟨rfl, rfl⟩ := alike
  have count : startedCount t.stream.attempts = startedCount s.call.attempts := by
    unfold startedCount
    rw [both.attempts]
  unfold Solo.Scripted at scripted
  unfold StreamSolo.Scripted at scripted'
  rw [here] at scripted
  rw [there, count] at scripted'
  have fault : e'.arrival.fault = e.outcome.fault := scripted'.1.trans scripted.1.symm
  have duration : e'.duration = e.duration := scripted'.2.trans scripted.2.symm
  unfold Solo.step StreamSolo.step Solo.deliver StreamSolo.deliver Call.resume Stream.proceed
    Solo.arrival StreamSolo.nextItem
  rw [here, there, duration]
  dsimp only
  by_cases inTime : e.duration < timeout'
  · rw [if_pos inTime, if_pos inTime]
    dsimp only
    cases outcome : e.outcome with
    | result r =>
        cases arrival : e'.arrival with
        | item item => exact .inr (both.succeed rfl rfl rfl rfl rfl)
        | exhausted | error err =>
            rw [outcome, arrival] at fault
            cases fault
    | error err =>
        rw [outcome] at fault
        cases arrival : e'.arrival with
        | item item =>
            rw [arrival] at fault
            cases fault
        | exhausted =>
            rw [arrival] at fault
            have same : (Stream.unmarked spec).kind = err.kind := Option.some.inj fault
            exact .inl (both.fail same rfl rfl rfl rfl rfl rfl rfl)
        | error err' =>
            rw [arrival] at fault
            exact .inl (both.fail (Option.some.inj fault) rfl rfl rfl rfl rfl rfl rfl)
  · rw [if_neg inTime, if_neg inTime]
    have same : (providerError .timeout spec.provider
        ("no data within " ++ tenths timeout' ++ "s (" ++ "first token" ++ ")")).kind =
        (providerError .timeout spec.provider
          ("no response within " ++ tenths timeout' ++ "s")).kind := rfl
    exact .inl (both.fail same rfl rfl rfl rfl rfl rfl rfl)

variable (gateway blocked) in
/-- After the record of a failure both decide alike. -/
theorem InStep.settle {s : Solo ρ} {t : StreamSolo} (both : InStep s t) {spec : ModelSpec} {n : Nat}
    {err : ProviderError} (here : s.call.point = .reporting spec n err)
    {e : Entry ρ} (scripted : s.Scripted trials e) {e' : StreamEntry}
    (scripted' : t.Scripted trials e') :
    InStep (s.step gateway .chat blocked e) (t.step gateway blocked e') ∨
      BothFailed (s.step gateway .chat blocked e) (t.step gateway blocked e') := by
  obtain ⟨a, err', there⟩ : ∃ a err', t.stream.point = .reporting a err' false := by
    have alike := both.alike
    rw [here] at alike
    cases point : t.stream.point <;> rw [point] at alike <;> try exact alike.elim
    rename_i emitted
    cases emitted with
    | true => exact alike.elim
    | false => exact ⟨_, _, rfl⟩
  have alike := both.alike
  rw [here, there] at alike
  obtain ⟨rfl, rfl, same⟩ := alike
  have count : startedCount t.stream.attempts = startedCount s.call.attempts := by
    unfold startedCount
    rw [both.attempts]
  unfold Solo.Scripted at scripted
  unfold StreamSolo.Scripted at scripted'
  rw [here] at scripted
  rw [there, count] at scripted'
  have duration : e'.duration = e.duration := scripted'.1.trans scripted.1.symm
  have draw : e'.draw = e.draw := scripted'.2.trans scripted.2.symm
  unfold Solo.step StreamSolo.step Solo.deliver StreamSolo.deliver Call.resume Stream.proceed
  rw [here, there, duration, draw, both.now, both.breakers]
  dsimp only
  unfold Call.settle Stream.settle
  rw [if_neg Bool.false_ne_true, same, both.deadline, shouldRetry_congr same]
  by_cases bad : err.kind = .badRequest
  · rw [if_pos bad, if_pos bad]
    right
    refine ⟨both.attempts, rfl, .badRequest, "the model rejected the request", t.stream.attempts, rfl,
      rfl, ?_⟩
    dsimp only
    rw [both.quiet]
    rfl
  · rw [if_neg bad, if_neg bad]
    left
    cases shouldRetry gateway err a.spec a.n (s.breakers a.spec.id) s.call.deadline
        (s.now + e.duration) e.draw with
    | none =>
        refine ⟨⟨rfl, rfl, both.targets, rfl, both.attempts, ?_⟩, trivial⟩
        dsimp only
        rw [both.quiet]
        rfl
    | some delay =>
        refine ⟨⟨rfl, rfl, both.targets, rfl, both.attempts, ?_⟩, rfl, rfl, rfl⟩
        dsimp only
        rw [both.quiet]
        rfl

variable (gateway blocked) in
/-- The stream closes its attempt and goes on as the call does. -/
theorem InStep.wake {s : Solo ρ} {t : StreamSolo} (both : InStep s t) {spec : ModelSpec} {n : Nat}
    {until_ : ℚ} (here : s.call.point = .sleeping spec n until_)
    {e : Entry ρ} (scripted : s.Scripted trials e) {e' e'' : StreamEntry}
    (scripted' : t.Scripted trials e')
    (scripted'' : (t.step gateway blocked e').Scripted trials e'') :
    InStep (s.step gateway .chat blocked e)
        ((t.step gateway blocked e').step gateway blocked e'') ∨
      BothFailed (s.step gateway .chat blocked e)
        ((t.step gateway blocked e').step gateway blocked e'') := by
  have there : t.stream.point = .sleeping spec n until_ := by
    have alike := both.alike
    rw [here] at alike
    cases point : t.stream.point <;> rw [point] at alike <;> try exact alike.elim
    obtain ⟨rfl, rfl, rfl⟩ := alike
    rfl
  have count : startedCount t.stream.attempts = startedCount s.call.attempts := by
    unfold startedCount
    rw [both.attempts]
  unfold Solo.Scripted at scripted
  unfold StreamSolo.Scripted at scripted'
  rw [here] at scripted
  rw [there, count] at scripted'
  have duration : e'.duration = e.duration := Eq.trans scripted' (Eq.symm scripted)
  have awake : t.step gateway blocked e' =
      { t with
        stream := { t.stream with point := .closing (some (spec, n + 1)) }
        now := max s.now until_ + e.duration
        trace := t.trace ++ [] } := by
    unfold StreamSolo.step StreamSolo.deliver Stream.proceed
    rw [there, duration, both.now]
  rw [awake] at scripted'' ⊢
  have free : e''.duration = 0 := scripted''
  let s₀ : Solo ρ := { s with now := max s.now until_ + e.duration }
  let t₀ : StreamSolo := { t with
    stream := { t.stream with point := .closing (some (spec, n + 1)) }
    now := max s.now until_ + e.duration
    trace := t.trace ++ [] }
  have ready : Paired s₀ t₀ :=
    ⟨rfl, both.breakers, both.targets, both.deadline, both.attempts, both.quiet []⟩
  have stepped : s.step gateway .chat blocked e =
      { call := (s₀.call.attempt gateway spec (n + 1) s₀.now).1, breakers := s₀.breakers,
        now := s₀.now,
        trace := s.trace ++ [(s₀.call.attempt gateway spec (n + 1) s₀.now).2] } := by
    unfold Solo.step Solo.deliver Call.resume
    rw [here]
  have stepped' : t₀.step gateway blocked e'' =
      { stream := (t₀.stream.attempt gateway spec (n + 1) t₀.now).1, breakers := t₀.breakers,
        now := t₀.now, trace := t₀.trace ++ (t₀.stream.attempt gateway spec (n + 1) t₀.now).2 } := by
    have still : t₀.now + e''.duration = t₀.now := by rw [free, add_zero]
    unfold StreamSolo.step StreamSolo.deliver Stream.proceed
    dsimp only [t₀] at still ⊢
    rw [still]
  rw [stepped, stepped']
  exact ready.attempt spec (n + 1) rfl rfl rfl rfl rfl rfl rfl

variable (gateway blocked) in
/-- Both turn to the next target. -/
theorem InStep.turn {s : Solo ρ} {t : StreamSolo} (both : InStep s t)
    (canChat : ∀ spec ∈ s.call.targets,
      gateway.isAvailable spec = true → gateway.chatProvider spec = true)
    (here : s.call.point = .choosing) (there : t.stream.point = .choosing) (e : Entry ρ)
    (e' : StreamEntry) :
    InStep (s.step gateway .chat blocked e) (t.step gateway blocked e') ∨
      BothFailed (s.step gateway .chat blocked e) (t.step gateway blocked e') := by
  have stepped : s.step gateway .chat blocked e =
      { call := (s.call.choose gateway .chat blocked s.now s.breakers).state,
        breakers := (s.call.choose gateway .chat blocked s.now s.breakers).breakers, now := s.now,
        trace := s.trace ++ (s.call.choose gateway .chat blocked s.now s.breakers).notes } := by
    unfold Solo.step Solo.deliver Call.resume
    rw [here]
  have stepped' : t.step gateway blocked e' =
      { stream := (t.stream.choose gateway blocked t.now t.breakers).state,
        breakers := (t.stream.choose gateway blocked t.now t.breakers).breakers, now := t.now,
        trace := t.trace ++ (t.stream.choose gateway blocked t.now t.breakers).notes } := by
    unfold StreamSolo.step StreamSolo.deliver Stream.proceed
    rw [there]
  rw [stepped, stepped']
  exact both.choose canChat rfl rfl rfl rfl rfl rfl rfl

variable (gateway blocked) in
/-- The stream closes its last attempt. -/
theorem InStep.closed {s : Solo ρ} {t : StreamSolo} (both : InStep s t)
    (here : s.call.point = .choosing) (there : t.stream.point = .closing none) {e' : StreamEntry}
    (scripted' : t.Scripted trials e') :
    InStep s (t.step gateway blocked e') ∧
      (t.step gateway blocked e').stream.point = .choosing := by
  unfold StreamSolo.Scripted at scripted'
  rw [there] at scripted'
  have free : e'.duration = 0 := scripted'
  have stepped' : t.step gateway blocked e' =
      { t with stream := { t.stream with point := .choosing }, trace := t.trace ++ [] } := by
    unfold StreamSolo.step StreamSolo.deliver Stream.proceed
    rw [there, free, add_zero]
  rw [stepped']
  refine ⟨⟨⟨both.now, both.breakers, both.targets, both.deadline, both.attempts, both.quiet []⟩, ?_⟩,
    rfl⟩
  rw [here]
  exact trivial

/-! ## To the end -/

/-- A call that is over stays as it is. -/
theorem Solo.over_run {kind : ModelKind} {s s' : Solo ρ} {entries : List (Entry ρ)}
    (run : Run (StepOf (Solo.step gateway kind blocked)) s entries s') {ending : Ending ρ}
    (ceased : s.call.point = .ended ending) : s'.call = s.call ∧ s'.breakers = s.breakers := by
  let Same : Solo ρ → Prop := fun t => t.call = s.call ∧ t.breakers = s.breakers
  have kept : Same s' := by
    refine run.invariant ?_ ⟨rfl, rfl⟩
    rintro t e _ rfl ⟨call, breakers⟩
    show (t.step gateway kind blocked e).call = s.call ∧ _
    unfold Solo.step Call.resume
    rw [call, ceased]
    exact ⟨rfl, breakers⟩
  exact kept

/-- After the last event a stream stays as it is. -/
theorem StreamSolo.finished_run {t t' : StreamSolo} {entries : List StreamEntry}
    (run : Run (StepOf (StreamSolo.step gateway blocked)) t entries t')
    (ceased : t.stream.point = .finished) :
    t'.stream.attempts = t.stream.attempts ∧ t'.breakers = t.breakers ∧
      events t'.trace = events t.trace := by
  let Same : StreamSolo → Prop := fun u =>
    (u.stream.point = .finished ∨ u.stream.point = .ended false) ∧
      u.stream.attempts = t.stream.attempts ∧ u.breakers = t.breakers ∧ u.trace = t.trace
  have kept : Same t' := by
    refine run.invariant ?_ ⟨.inl ceased, rfl, rfl, rfl⟩
    rintro u e _ rfl ⟨point, attempts, breakers, trace⟩
    show Same (StreamSolo.step gateway blocked u e)
    unfold StreamSolo.step Stream.proceed
    rcases point with there | there
    · rw [there]
      exact ⟨.inr rfl, attempts, breakers, (List.append_nil _).trans trace⟩
    · rw [there]
      exact ⟨.inr there, attempts, breakers, (List.append_nil _).trans trace⟩
  obtain ⟨-, attempts, breakers, trace⟩ := kept
  exact ⟨attempts, breakers, by rw [trace]⟩

/-- What a call and a stream agree on in any case, and what the stream announced. -/
structure Nearly (s : Solo ρ) (ending : Ending ρ) (t : StreamSolo) : Prop where
  attempts : t.stream.attempts.map AttemptRecord.tally = s.call.attempts.map AttemptRecord.tally
  breakers : t.breakers = s.breakers
  verdict : (events t.trace).getLast?.bind StreamEvent.verdict = ending.verdict
  announced : (∃ code, ending = .failed code ∧
      (events t.trace).filterMap StreamEvent.announced? = []) ∨
    ∃ r spec n before, ending = .returned r spec ∧
      s.call.attempts.map AttemptRecord.tally =
        before ++ [{ modelId := spec.id, attempt := n, outcome := .success }] ∧
      (events t.trace).filterMap StreamEvent.announced? = [(spec, !before.isEmpty)]

/-- Both gave up. -/
theorem BothFailed.nearly {s s' : Solo ρ} {t t' : StreamSolo} (both : BothFailed s t)
    {entries : List (Entry ρ)} {entries' : List StreamEntry}
    (called : Run (StepOf (Solo.step gateway .chat blocked)) s entries s')
    (streamed : Run (StepOf (StreamSolo.step gateway blocked)) t entries' t')
    {ending : Ending ρ} (ceased : s'.call.point = .ended ending) : Nearly s' ending t' := by
  obtain ⟨code, message, reported, here, there, told⟩ := both.ended
  obtain ⟨call, breakers⟩ := Solo.over_run called here
  obtain ⟨attempts, breakers', trace⟩ := StreamSolo.finished_run streamed there
  have same : ending = .failed code := by
    rw [call, here] at ceased
    exact (Point.ended.inj ceased).symm
  refine ⟨?_, ?_, ?_, .inl ⟨code, same, ?_⟩⟩
  · rw [attempts, call, both.attempts]
  · rw [breakers', breakers, both.breakers]
  · rw [trace, told, same]
    rfl
  · rw [trace, told]
    rfl

/-- A stream that has announced a model: what it has recorded and handed on where it stands. -/
def Serving (spec : ModelSpec) (n : Nat) (before : List Tally) (breakers : Breakers)
    (route : String) (fallback : Bool) (t : StreamSolo) : Prop :=
  match t.stream.point with
  | .announced a _ _ | .passing a _ | .waiting a _ _ _ => a.spec = spec ∧ a.n = n ∧
      t.stream.attempts.map AttemptRecord.tally = before ∧ t.breakers = breakers ∧
      ∃ deltas : List String, events t.trace = .started spec route fallback :: deltas.map .delta
  | .completing a _ _ => a.spec = spec ∧
      t.stream.attempts.map AttemptRecord.tally =
        before ++ [{ modelId := spec.id, attempt := n, outcome := .success }] ∧
      t.breakers = breakers.set spec.id (breakers spec.id).recordSuccess ∧
      ∃ deltas : List String, events t.trace = .started spec route fallback :: deltas.map .delta
  | .reporting _ _ true => True
  | .finished | .ended false => ¬t.Unbroken ∨
      t.stream.attempts.map AttemptRecord.tally =
        before ++ [{ modelId := spec.id, attempt := n, outcome := .success }] ∧
      t.breakers = breakers.set spec.id (breakers spec.id).recordSuccess ∧
      ∃ (deltas : List String) (reason : Option String) (latency ttft : ℚ)
        (reported : List AttemptRecord), events t.trace =
          .started spec route fallback :: deltas.map .delta ++
            [.completed spec reason latency ttft reported]
  | _ => False

theorem events_append (front back : List StreamNote) :
    events (front ++ back) = events front ++ events back := List.filterMap_append

/-- Handing on an item. -/
theorem serving_pass {spec : ModelSpec} {n : Nat} {before : List Tally} {breakers : Breakers}
    {route : String} {fallback : Bool} {t t' : StreamSolo} {a : Attempt}
    (here : a.spec = spec ∧ a.n = n ∧ t.stream.attempts.map AttemptRecord.tally = before ∧
      t.breakers = breakers ∧ ∃ deltas : List String,
        events t.trace = .started spec route fallback :: deltas.map .delta)
    {ttft now : ℚ} {item : StreamItem} {front : List StreamNote} (quiet : events front = [])
    (stream : t'.stream = (t.stream.pass a ttft now item t.breakers).state)
    (breakers' : t'.breakers = (t.stream.pass a ttft now item t.breakers).breakers)
    (trace : t'.trace = t.trace ++ (front ++ (t.stream.pass a ttft now item t.breakers).notes)) :
    Serving spec n before breakers route fallback t' := by
  obtain ⟨rfl, rfl, attempts, rfl, deltas, told⟩ := here
  have heard : events t'.trace = events t.trace ++
      events (t.stream.pass a ttft now item t.breakers).notes := by
    rw [trace, events_append, events_append, quiet, List.nil_append]
  rw [told] at heard
  unfold Serving
  rw [stream]
  cases item with
  | delta text =>
      refine ⟨rfl, rfl, ?_, breakers', deltas ++ [text], ?_⟩
      · rw [← attempts]
        rfl
      · rw [heard, List.map_append]
        rfl
  | finish reason =>
      refine ⟨rfl, ?_, breakers', deltas, heard.trans (List.append_nil _)⟩
      show List.map _ (_ ++ [_]) = _
      rw [List.map_append, attempts]
      rfl

/-- **A stream that has announced a model keeps to it.** -/
theorem serving_step {spec : ModelSpec} {n : Nat} {before : List Tally} {breakers : Breakers}
    {route : String} {fallback : Bool} {t : StreamSolo}
    (serving : Serving spec n before breakers route fallback t) (e : StreamEntry) :
    Serving spec n before breakers route fallback (t.step gateway blocked e) := by
  unfold Serving at serving
  have stepped : ∃ arrival now, t.step gateway blocked e =
      { stream := (t.stream.proceed gateway blocked arrival e.draw now t.breakers).state,
        breakers := (t.stream.proceed gateway blocked arrival e.draw now t.breakers).breakers,
        now,
        trace := t.trace ++
          (t.stream.proceed gateway blocked arrival e.draw now t.breakers).notes } :=
    ⟨_, _, rfl⟩
  cases here : t.stream.point with
  | choosing | opening _ _ | sleeping _ _ _ | closing _ =>
      rw [here] at serving
      exact serving.elim
  | announced a ttft item =>
      rw [here] at serving
      obtain ⟨arrival, now, stepped⟩ := stepped
      rw [stepped]
      unfold Stream.proceed
      rw [here]
      have quiet : events [] = [] := rfl
      exact serving_pass serving quiet rfl rfl rfl
  | passing a ttft =>
      rw [here] at serving
      obtain ⟨rfl, rfl, attempts, rfl, deltas, told⟩ := serving
      unfold Serving StreamSolo.step StreamSolo.deliver Stream.proceed
      rw [here]
      dsimp only
      by_cases late : min gateway.config.streamIdleTimeoutS
          (t.stream.deadline - (t.now + e.duration)) ≤ 0
      · rw [if_pos late]
        exact trivial
      · rw [if_neg late]
        refine ⟨rfl, rfl, attempts, rfl, deltas, ?_⟩
        dsimp only
        rw [List.append_nil, told]
  | waiting a ttft since idle =>
      rw [here] at serving
      obtain ⟨arrival, now, stepped⟩ := stepped
      rw [stepped]
      unfold Stream.proceed
      rw [here]
      cases arrival with
      | item item =>
          have quiet : events [.received a.spec a.n item] = [] := rfl
          exact serving_pass serving quiet rfl rfl rfl
      | exhausted => exact trivial
      | error err => exact trivial
  | completing a ttft reason =>
      rw [here] at serving
      obtain ⟨rfl, attempts, breakers', deltas, told⟩ := serving
      unfold Serving StreamSolo.step StreamSolo.deliver Stream.proceed
      rw [here]
      have added : events (t.trace ++ [.event (.completed a.spec reason
          (t.now + e.duration - t.stream.requested) ttft t.stream.attempts)]) =
          .started a.spec route fallback :: deltas.map .delta ++ [.completed a.spec reason
            (t.now + e.duration - t.stream.requested) ttft t.stream.attempts] := by
        rw [events_append, told]
        rfl
      exact .inr ⟨attempts, breakers', deltas, _, _, _, _, added⟩
  | reporting a err emitted =>
      rw [here] at serving
      cases emitted with
      | false => exact serving.elim
      | true =>
          unfold Serving StreamSolo.step StreamSolo.deliver Stream.proceed
          rw [here]
          left
          intro unbroken
          have failed : StreamEvent.failed .providerErrorMidStream
              "the model provider failed while streaming; the answer is incomplete" true
              t.stream.attempts ∈ events (t.trace ++ [.event (.failed .providerErrorMidStream
                "the model provider failed while streaming; the answer is incomplete" true
                t.stream.attempts)]) := by
            rw [events_append]
            exact List.mem_append_right _ (List.mem_singleton.mpr rfl)
          exact absurd (unbroken _ failed) Bool.noConfusion
  | finished =>
      rw [here] at serving
      unfold Serving StreamSolo.step StreamSolo.deliver Stream.proceed
      rw [here]
      dsimp only
      rw [List.append_nil]
      exact serving
  | ended aborted =>
      rw [here] at serving
      cases aborted with
      | true => exact serving.elim
      | false =>
          unfold Serving StreamSolo.step StreamSolo.deliver Stream.proceed
          rw [here]
          dsimp only
          rw [here, List.append_nil]
          exact serving

/-- The deltas and the end announce nothing. -/
theorem announced_served (spec : ModelSpec) (route : String) (fallback : Bool) (deltas : List String)
    (reason : Option String) (latency ttft : ℚ) (reported : List AttemptRecord) :
    (StreamEvent.started spec route fallback :: deltas.map StreamEvent.delta ++
      [StreamEvent.completed spec reason latency ttft reported]).filterMap
        StreamEvent.announced? = [(spec, fallback)] := by
  have none : (deltas.map StreamEvent.delta).filterMap StreamEvent.announced? = [] := by
    induction deltas with
    | nil => rfl
    | cons text deltas ih => exact ih
  show (spec, fallback) :: (deltas.map StreamEvent.delta ++ _).filterMap StreamEvent.announced? = _
  rw [List.filterMap_append, none]
  rfl

/-- **Both serve.** -/
theorem BothServed.nearly {s s' : Solo ρ} {t t' : StreamSolo} {spec : ModelSpec} {n : Nat}
    (both : BothServed s t spec n) {entries : List (Entry ρ)} {entries' : List StreamEntry}
    (called : Run (StepOf (Solo.step gateway .chat blocked)) s entries s')
    (streamed : Run (StepOf (StreamSolo.step gateway blocked)) t entries' t')
    {ending : Ending ρ} (ceased : s'.call.point = .ended ending)
    (consumed : t'.stream.point = .ended false) (unbroken : t'.Unbroken) :
    Nearly s' ending t' := by
  obtain ⟨r, here⟩ := both.call
  obtain ⟨a, ttft, item, there, rfl, rfl⟩ := both.stream
  obtain ⟨route, told⟩ := both.announced
  have serving : Serving a.spec a.n (t.stream.attempts.map AttemptRecord.tally) t.breakers route
      (!t.stream.attempts.isEmpty) t' := by
    refine streamed.invariant ?_ ?_
    · rintro u e _ rfl before
      exact serving_step before e
    · unfold Serving
      rw [there]
      exact ⟨rfl, rfl, rfl, rfl, [], told⟩
  unfold Serving at serving
  rw [consumed] at serving
  rcases serving with broken | ⟨attempts, breakers, deltas, reason, latency, ttft', reported, events_eq⟩
  · exact absurd unbroken broken
  have final : ending = .returned r a.spec ∧ s'.call.attempts = s.call.attempts ∧
      s'.breakers = s.breakers := by
    cases called with
    | nil =>
        rw [here] at ceased
        cases ceased
    | @cons _ mid _ e _ step rest =>
        have delivered : mid.call = { s.call with point := .ended (.returned r a.spec) } ∧
            mid.breakers = s.breakers := by
          rw [← (step : s.step gateway .chat blocked e = mid)]
          unfold Solo.step Solo.deliver Call.resume
          rw [here]
          exact ⟨rfl, rfl⟩
        obtain ⟨call, breakers⟩ := Solo.over_run rest (by rw [delivered.1])
        rw [call, delivered.1] at ceased
        refine ⟨(Point.ended.inj ceased).symm, ?_, ?_⟩
        · rw [call, delivered.1]
        · rw [breakers, delivered.2]
  obtain ⟨rfl, sameAttempts, sameBreakers⟩ := final
  refine ⟨?_, ?_, ?_, .inr ⟨r, a.spec, a.n, t.stream.attempts.map AttemptRecord.tally, rfl, ?_, ?_⟩⟩
  · rw [attempts, sameAttempts, both.attempts]
  · rw [breakers, sameBreakers, both.breakers]
  · rw [events_eq, List.getLast?_append]
    rfl
  · rw [sameAttempts, both.attempts]
  · rw [events_eq, announced_served, List.isEmpty_map]

/-- Every provider that is set up can chat. -/
def LLMGateway.AllChat (gateway : LLMGateway) : Prop :=
  ∀ provider ∈ gateway.providers, ModelKind.chat ∈ provider.2

theorem LLMGateway.AllChat.target {gateway : LLMGateway} (allChat : gateway.AllChat)
    (spec : ModelSpec) (available : gateway.isAvailable spec = true) :
    gateway.chatProvider spec = true := by
  unfold LLMGateway.isAvailable at available
  unfold LLMGateway.chatProvider
  obtain ⟨kinds, found⟩ := Option.isSome_iff_exists.mp available
  rw [found]
  obtain ⟨front, back, shape, -⟩ := List.lookup_eq_some_iff.mp found
  have mem : (spec.provider, kinds) ∈ gateway.providers := by
    rw [shape]
    exact List.mem_append_right _ List.mem_cons_self
  simpa using allChat _ mem

/-- A stream that is not over goes on. -/
theorem StreamSolo.goes_on {t t' : StreamSolo} {entries : List StreamEntry}
    (streamed : Run (Guarded (StreamSolo.Scripted trials) (StepOf (StreamSolo.step gateway blocked)))
      t entries t')
    (consumed : t'.stream.point = .ended false) (going : t.stream.point ≠ .ended false) :
    ∃ e rest, t.Scripted trials e ∧ Run (Guarded (StreamSolo.Scripted trials)
      (StepOf (StreamSolo.step gateway blocked))) (t.step gateway blocked e) rest t' := by
  cases streamed with
  | nil => exact absurd consumed going
  | @cons _ mid _ e rest step later =>
      obtain ⟨scripted, rfl⟩ := step
      exact ⟨e, rest, scripted, later⟩

/-- **The two loops from where they are in step.** -/
theorem InStep.nearly {s s' : Solo ρ} {t t' : StreamSolo} (both : InStep s t)
    (allChat : gateway.AllChat) {entries : List (Entry ρ)} {entries' : List StreamEntry}
    (called : Run (Guarded (Solo.Scripted trials) (StepOf (Solo.step gateway .chat blocked)))
      s entries s')
    (streamed : Run (Guarded (StreamSolo.Scripted trials) (StepOf (StreamSolo.step gateway blocked)))
      t entries' t')
    {ending : Ending ρ} (ceased : s'.call.point = .ended ending)
    (consumed : t'.stream.point = .ended false) (unbroken : t'.Unbroken) :
    Nearly s' ending t' := by
  induction called generalizing t entries' with
  | nil s =>
      have alike := both.alike
      rw [ceased] at alike
      exact alike.elim
  | @cons s mid s' e entries step rest ih =>
      obtain ⟨scripted, rfl⟩ := step
      have going : t.stream.point ≠ .ended false := by
        intro there
        have alike := both.alike
        rw [there] at alike
        cases here : s.call.point <;> rw [here] at alike <;> exact alike.elim
      obtain ⟨e', later, scripted', streamed'⟩ := StreamSolo.goes_on streamed consumed going
      cases here : s.call.point with
      | choosing =>
          have turned : ∀ {t : StreamSolo} {e' : StreamEntry} {later : List StreamEntry},
              InStep s t → t.stream.point = .choosing →
              Run (Guarded (StreamSolo.Scripted trials) (StepOf (StreamSolo.step gateway blocked)))
                (t.step gateway blocked e') later t' → Nearly s' ending t' := by
            intro t e' later both there streamed
            have next : _ ∨ _ := both.turn gateway blocked
              (fun spec _ => allChat.target spec) here there e e'
            rcases next with next | failed
            · exact ih next streamed ceased
            · exact failed.nearly rest.unguarded streamed.unguarded ceased
          cases there : t.stream.point with
          | choosing => exact turned both there streamed'
          | closing again =>
              cases again with
              | none =>
                  obtain ⟨next, choosing⟩ := both.closed gateway blocked here there scripted'
                  obtain ⟨e'', later', -, streamed''⟩ := StreamSolo.goes_on streamed' consumed
                    (by rw [choosing]; exact nofun)
                  exact turned next choosing streamed''
              | some next =>
                  have alike := both.alike
                  rw [here, there] at alike
                  exact alike.elim
          | _ =>
              have alike := both.alike
              rw [here, there] at alike
              exact alike.elim
      | invoking spec n started timeout =>
          rcases both.reply gateway blocked here scripted scripted' with
            next | served
          · exact ih next streamed' ceased
          · exact served.nearly rest.unguarded streamed'.unguarded ceased consumed unbroken
      | reporting spec n err =>
          rcases both.settle gateway blocked here scripted scripted' with
            next | failed
          · exact ih next streamed' ceased
          · exact failed.nearly rest.unguarded streamed'.unguarded ceased
      | sleeping spec n until_ =>
          have awake : (t.step gateway blocked e').stream.point ≠ .ended false := by
            have there : t.stream.point = .sleeping spec n until_ := by
              have alike := both.alike
              rw [here] at alike
              cases point : t.stream.point <;> rw [point] at alike <;> try exact alike.elim
              obtain ⟨rfl, rfl, rfl⟩ := alike
              rfl
            unfold StreamSolo.step Stream.proceed
            rw [there]
            exact nofun
          obtain ⟨e'', later', scripted'', streamed''⟩ :=
            StreamSolo.goes_on streamed' consumed awake
          rcases both.wake gateway blocked here scripted scripted' scripted''
            with next | failed
          · exact ih next streamed'' ceased
          · exact failed.nearly rest.unguarded streamed''.unguarded ceased
      | delivering spec r =>
          have alike := both.alike
          rw [here] at alike
          exact alike.elim
      | ended ending' =>
          have alike := both.alike
          rw [here] at alike
          exact alike.elim

/-! ## What the script says of the call -/

section Recovering

variable (gateway blocked trials) (modelId : String)

/-- What is left of the condition where a call stands. -/
def Call.recovering (call : Call ρ) (now : ℚ) (breakers : Breakers) : Bool :=
  let i := startedCount call.attempts
  let next := targetsServe gateway blocked call.deadline trials modelId call.targets true
  let retry := fun spec n => attemptServes gateway call.deadline trials spec next
    ((gateway.catalog.config spec).maxAttempts - n) (n + 1) true
  (call.attempts.all fun a => a.modelId == modelId) &&
    match call.point with
    | .choosing => targetsServe gateway blocked call.deadline trials modelId call.targets
        (!call.attempts.isEmpty) i now breakers
    | .invoking spec n started timeout => spec.id == modelId &&
        replyServes gateway call.deadline trials spec n i ((trials i).ends started timeout) breakers
          (!call.attempts.isEmpty) next (retry spec n)
    | .reporting spec n err => spec.id == modelId &&
        settleServes gateway call.deadline trials spec n (i - 1) err.kind
          (now + (trials (i - 1)).recording) breakers next (retry spec n)
    | .sleeping spec n until_ => spec.id == modelId &&
        retry spec n i (max now until_ + (trials (i - 1)).oversleep) breakers
    | .delivering spec _ | .ended (.returned _ spec) =>
        spec.id == modelId && call.attempts.length != 1
    | .ended _ => false

end Recovering

/-- A target was started. -/
def HasTried (attempts : List AttemptRecord) (spec : ModelSpec) : Prop :=
  1 ≤ startedCount attempts ∧ ∃ a ∈ attempts, a.modelId = spec.id

/-- How many attempts of a target may follow, and which were. -/
def Call.Bounded (gateway : LLMGateway) (call : Call ρ) : Prop :=
  match call.point with
  | .invoking spec n _ _ => n ≤ (gateway.catalog.config spec).maxAttempts
  | .reporting spec n _ =>
      n ≤ (gateway.catalog.config spec).maxAttempts ∧ HasTried call.attempts spec
  | .sleeping spec n _ =>
      n < (gateway.catalog.config spec).maxAttempts ∧ HasTried call.attempts spec
  | _ => True

/-- Where all attempts are of one model, so is the one that was just made. -/
theorem HasTried.names {attempts : List AttemptRecord} {spec : ModelSpec}
    (tried : HasTried attempts spec) (modelId : String) (b : Bool) :
    ((attempts.all fun a => a.modelId == modelId) && (spec.id == modelId && b)) =
      ((attempts.all fun a => a.modelId == modelId) && b) := by
  obtain ⟨-, a, mem, same⟩ := tried
  cases each : attempts.all fun a => a.modelId == modelId with
  | false => rfl
  | true =>
      have named := List.all_eq_true.mp each a mem
      rw [same] at named
      rw [named]
      rfl

/-- The condition over the targets passed over at once. -/
theorem targetsServe_walk (deadline : ℚ) (modelId : String) (now : ℚ) :
    ∀ (targets : List ModelSpec) (again : Bool) (i : Nat) (breakers : Breakers),
    targetsServe gateway blocked deadline trials modelId targets again i now breakers =
      (((nextTarget gateway.isAvailable blocked now targets breakers).skips.all
          fun skip => skip.1.id == modelId) &&
        match (nextTarget gateway.isAvailable blocked now targets breakers).found with
        | none => false
        | some (spec, rest) => spec.id == modelId &&
            attemptServes gateway deadline trials spec
              (targetsServe gateway blocked deadline trials modelId rest true)
              (gateway.catalog.config spec).maxAttempts 1
              (again || !(nextTarget gateway.isAvailable blocked now targets breakers).skips.isEmpty)
              i now (nextTarget gateway.isAvailable blocked now targets breakers).breakers)
  | [], _, _, _ => rfl
  | spec :: rest, again, i, breakers => by
      unfold targetsServe nextTarget
      rcases admit_cases gateway.isAvailable blocked now spec breakers with
        ⟨ready, asked⟩ | ⟨refused, reason, asked, -⟩
      · rw [asked, if_pos ready]
        by_cases same : spec.id = modelId
        · simp [same]
        · simp [same]
      · rw [asked, if_neg refused]
        by_cases same : spec.id = modelId
        · rw [if_neg (not_not.mpr same), targetsServe_walk deadline modelId now rest true i breakers]
          simp [same]
        · simp [same]

/-- Targets passed over are not started. -/
theorem startedCount_skips (attempts : List AttemptRecord) (skips : List (ModelSpec × String)) :
    startedCount (attempts ++ skips.map fun s => skipRecord .chat s.1 s.2) = startedCount attempts := by
  unfold startedCount
  rw [List.map_append, List.countP_append]
  have none : ((skips.map fun s => skipRecord .chat s.1 s.2).map AttemptRecord.tally).countP
      (fun t => t.outcome != .skipped) = 0 := by
    rw [List.countP_eq_zero]
    intro tally mem
    obtain ⟨record, there, rfl⟩ := List.mem_map.mp mem
    obtain ⟨skip, -, rfl⟩ := List.mem_map.mp there
    exact Bool.false_ne_true
  rw [none, Nat.add_zero]

theorem startedCount_failed (attempts : List AttemptRecord) (spec : ModelSpec) (n : Nat)
    (started now : ℚ) (err : ProviderError) :
    startedCount (attempts ++ [failedRecord .chat spec n started now none err]) =
      startedCount attempts + 1 := by
  unfold startedCount
  rw [List.map_append, List.countP_append]
  unfold failedRecord
  by_cases timeout : err.kind = .timeout <;> simp [timeout, AttemptRecord.tally]

/-- The head of the attempt loop. -/
theorem Call.recovering_attempt (modelId : String) (call : Call ρ) (spec : ModelSpec) (n left : Nat)
    (room : n + left = (gateway.catalog.config spec).maxAttempts) (now : ℚ) (breakers : Breakers) :
    (call.attempt gateway spec n now).1.recovering gateway blocked trials modelId now breakers =
      ((call.attempts.all fun a => a.modelId == modelId) && (spec.id == modelId &&
        attemptServes gateway call.deadline trials spec
          (targetsServe gateway blocked call.deadline trials modelId call.targets true) (left + 1) n
          (!call.attempts.isEmpty) (startedCount call.attempts) now breakers)) := by
  have rest : (gateway.catalog.config spec).maxAttempts - n = left := by omega
  unfold attemptServes
  rcases Call.attempt_cases gateway call spec n now with ⟨late, attempted⟩ | ⟨inTime, attempted⟩
  · rw [attempted, if_pos late]
    simp [recovering]
  · rw [attempted, if_neg (not_le.mpr inTime)]
    unfold recovering
    dsimp only
    rw [rest]
    rfl

theorem Call.bounded_attempt (call : Call ρ) (spec : ModelSpec) {n : Nat}
    (room : n ≤ (gateway.catalog.config spec).maxAttempts) (now : ℚ) :
    (call.attempt gateway spec n now).1.Bounded gateway := by
  rcases Call.attempt_cases gateway call spec n now with ⟨-, attempted⟩ | ⟨-, attempted⟩
  · rw [attempted]
    trivial
  · rw [attempted]
    exact room

/-- Turning to the next target keeps the condition. -/
theorem Call.recovering_choose (modelId : String) (call : Call ρ) (here : call.point = .choosing)
    (now : ℚ) (breakers : Breakers) :
    (call.choose gateway .chat blocked now breakers).state.recovering gateway blocked trials modelId
        now (call.choose gateway .chat blocked now breakers).breakers =
      call.recovering gateway blocked trials modelId now breakers ∧
    (call.choose gateway .chat blocked now breakers).state.Bounded gateway := by
  have before : call.recovering gateway blocked trials modelId now breakers =
      ((call.attempts.all fun a => a.modelId == modelId) &&
        targetsServe gateway blocked call.deadline trials modelId call.targets
          (!call.attempts.isEmpty) (startedCount call.attempts) now breakers) := by
    unfold recovering
    rw [here]
  rw [before, targetsServe_walk]
  unfold choose
  generalize nextTarget gateway.isAvailable blocked now call.targets breakers = choice
  dsimp only
  cases found : choice.found with
  | none => exact ⟨by simp [recovering], trivial⟩
  | some next =>
      obtain ⟨spec, rest⟩ := next
      have positive := (gateway.catalog.config spec).attempts_pos
      refine ⟨?_, bounded_attempt _ spec positive now⟩
      dsimp only
      rw [recovering_attempt modelId _ spec 1 ((gateway.catalog.config spec).maxAttempts - 1)
        (by omega) now choice.breakers, startedCount_skips]
      have whole : (gateway.catalog.config spec).maxAttempts - 1 + 1 =
          (gateway.catalog.config spec).maxAttempts := by omega
      have each : ((call.attempts ++ choice.skips.map fun s => skipRecord .chat s.1 s.2).all
          fun a => a.modelId == modelId) = ((call.attempts.all fun a => a.modelId == modelId) &&
            choice.skips.all fun skip => skip.1.id == modelId) := by
        rw [List.all_append, List.all_map]
        rfl
      have again : (!(call.attempts ++ choice.skips.map fun s => skipRecord .chat s.1 s.2).isEmpty) =
          (!call.attempts.isEmpty || !choice.skips.isEmpty) := by
        cases call.attempts <;> cases choice.skips <;> rfl
      dsimp only
      rw [whole, each, again, Bool.and_assoc]

/-- An attempt that ends keeps the condition. -/
theorem Solo.recovering_reply (modelId : String) {s : Solo ρ} {spec : ModelSpec} {n : Nat}
    {started timeout : ℚ} (here : s.call.point = .invoking spec n started timeout)
    (room : n ≤ (gateway.catalog.config spec).maxAttempts) {e : Entry ρ}
    (scripted : s.Scripted trials e) :
    (s.step gateway .chat blocked e).call.recovering gateway blocked trials modelId
        (s.step gateway .chat blocked e).now (s.step gateway .chat blocked e).breakers =
      s.call.recovering gateway blocked trials modelId s.now s.breakers ∧
    (s.step gateway .chat blocked e).call.Bounded gateway := by
  unfold Scripted at scripted
  rw [here] at scripted
  obtain ⟨fault, duration⟩ := scripted
  have failed : ∀ (err : ProviderError) (ceased : ℚ),
      (trials (startedCount s.call.attempts)).ends started timeout = (some err.kind, ceased) →
      (s.call.fail .chat spec n started ceased err s.breakers).state.recovering gateway blocked trials
          modelId ceased (s.call.fail .chat spec n started ceased err s.breakers).breakers =
        s.call.recovering gateway blocked trials modelId s.now s.breakers ∧
      (s.call.fail .chat spec n started ceased err s.breakers).state.Bounded gateway := by
    intro err ceased ends
    refine ⟨?_, room, ?_⟩
    · unfold Call.recovering Call.fail replyServes
      dsimp only
      rw [here]
      dsimp only
      rw [ends, startedCount_failed, Nat.add_sub_cancel, List.all_append]
      have same : updateBreaker s.breakers spec { kind := err.kind } ceased =
          updateBreaker s.breakers spec err ceased := updateBreaker_congr s.breakers spec rfl ceased
      dsimp only
      rw [same]
      cases here : spec.id == modelId <;> simp [failedRecord, here]
    · refine ⟨?_, _, List.mem_append_right _ (List.mem_singleton.mpr rfl), rfl⟩
      show 1 ≤ startedCount (_ ++ [_])
      rw [startedCount_failed]
      omega
  unfold step deliver Call.resume arrival
  rw [here]
  dsimp only
  by_cases inTime : e.duration < timeout
  · rw [if_pos inTime]
    have ends : (trials (startedCount s.call.attempts)).ends started timeout =
        (e.outcome.fault, started + e.duration) := by
      unfold Trial.ends
      rw [← duration, if_pos inTime, fault]
    cases outcome : e.outcome with
    | error err =>
        rw [outcome] at ends
        exact failed err _ ends
    | result r =>
        rw [outcome] at ends
        refine ⟨?_, trivial⟩
        unfold Call.recovering Call.succeed replyServes
        dsimp only
        rw [here]
        dsimp only
        rw [ends]
        cases here : spec.id == modelId <;> cases s.call.attempts <;>
          simp [successRecord, Outcome.fault, here]
  · rw [if_neg inTime]
    refine failed _ _ ?_
    unfold Trial.ends
    rw [← duration, if_neg inTime]
    rfl

/-- The decision after a failure keeps the condition. -/
theorem Solo.recovering_settle (modelId : String) {s : Solo ρ} {spec : ModelSpec} {n : Nat}
    {err : ProviderError} (here : s.call.point = .reporting spec n err)
    (tried : HasTried s.call.attempts spec) {e : Entry ρ} (scripted : s.Scripted trials e) :
    (s.step gateway .chat blocked e).call.recovering gateway blocked trials modelId
        (s.step gateway .chat blocked e).now (s.step gateway .chat blocked e).breakers =
      s.call.recovering gateway blocked trials modelId s.now s.breakers ∧
    (s.step gateway .chat blocked e).call.Bounded gateway := by
  unfold Scripted at scripted
  rw [here] at scripted
  obtain ⟨recording, draw⟩ := scripted
  have index : startedCount s.call.attempts - 1 + 1 = startedCount s.call.attempts :=
    Nat.sub_add_cancel tried.1
  have before : s.call.recovering gateway blocked trials modelId s.now s.breakers =
      ((s.call.attempts.all fun a => a.modelId == modelId) && (spec.id == modelId &&
        settleServes gateway s.call.deadline trials spec n (startedCount s.call.attempts - 1) err.kind
          (s.now + (trials (startedCount s.call.attempts - 1)).recording) s.breakers
          (targetsServe gateway blocked s.call.deadline trials modelId s.call.targets true)
          (attemptServes gateway s.call.deadline trials spec
            (targetsServe gateway blocked s.call.deadline trials modelId s.call.targets true)
            ((gateway.catalog.config spec).maxAttempts - n) (n + 1) true))) := by
    unfold Call.recovering
    rw [here]
  rw [before]
  unfold step deliver Call.resume Call.settle settleServes
  rw [here]
  dsimp only
  rw [recording, draw]
  by_cases bad : err.kind = .badRequest
  · rw [if_pos bad, if_pos bad]
    refine ⟨?_, trivial⟩
    simp [Call.recovering]
  · rw [if_neg bad, if_neg bad]
    have sameKind : ({ kind := err.kind } : ProviderError).kind = err.kind := rfl
    rw [shouldRetry_congr sameKind]
    have room : ∀ delay, shouldRetry gateway err spec n (s.breakers spec.id) s.call.deadline
        (s.now + (trials (startedCount s.call.attempts - 1)).recording)
        (trials (startedCount s.call.attempts - 1)).draw = some delay →
        n < (gateway.catalog.config spec).maxAttempts := by
      intro delay again
      exact (shouldRetry_eq_some again).2.1
    cases again : shouldRetry gateway err spec n (s.breakers spec.id) s.call.deadline
        (s.now + (trials (startedCount s.call.attempts - 1)).recording)
        (trials (startedCount s.call.attempts - 1)).draw with
    | none =>
        refine ⟨?_, trivial⟩
        have again : (!s.call.attempts.isEmpty) = true := by
          obtain ⟨-, a, mem, -⟩ := tried
          cases shape : s.call.attempts with
          | nil =>
              rw [shape] at mem
              cases mem
          | cons first rest => rfl
        rw [tried.names]
        unfold Call.recovering
        dsimp only
        rw [index, again]
    | some delay =>
        refine ⟨?_, room delay again, tried⟩
        unfold Call.recovering
        dsimp only
        rw [index]

/-- **The condition is the same all along.** -/
theorem Solo.recovering_step (modelId : String) {s : Solo ρ} (bounded : s.call.Bounded gateway)
    {e : Entry ρ} (scripted : s.Scripted trials e) :
    (s.step gateway .chat blocked e).call.recovering gateway blocked trials modelId
        (s.step gateway .chat blocked e).now (s.step gateway .chat blocked e).breakers =
      s.call.recovering gateway blocked trials modelId s.now s.breakers ∧
    (s.step gateway .chat blocked e).call.Bounded gateway := by
  unfold Call.Bounded at bounded
  cases here : s.call.point with
  | choosing =>
      unfold step deliver Call.resume
      rw [here]
      exact Call.recovering_choose modelId s.call here s.now s.breakers
  | invoking spec n started timeout =>
      rw [here] at bounded
      exact recovering_reply modelId here bounded scripted
  | reporting spec n err =>
      rw [here] at bounded
      exact recovering_settle modelId here bounded.2 scripted
  | sleeping spec n until_ =>
      rw [here] at bounded
      unfold Scripted at scripted
      rw [here] at scripted
      have oversleep : e.duration = (trials (startedCount s.call.attempts - 1)).oversleep := scripted
      have before : s.call.recovering gateway blocked trials modelId s.now s.breakers =
          ((s.call.attempts.all fun a => a.modelId == modelId) && (spec.id == modelId &&
            attemptServes gateway s.call.deadline trials spec
              (targetsServe gateway blocked s.call.deadline trials modelId s.call.targets true)
              ((gateway.catalog.config spec).maxAttempts - n) (n + 1) true
              (startedCount s.call.attempts)
              (max s.now until_ + (trials (startedCount s.call.attempts - 1)).oversleep)
              s.breakers)) := by
        unfold Call.recovering
        rw [here]
      have again : (!s.call.attempts.isEmpty) = true := by
        obtain ⟨-, -, a, mem, -⟩ := bounded
        cases shape : s.call.attempts with
        | nil =>
            rw [shape] at mem
            cases mem
        | cons first rest => rfl
      have left : (gateway.catalog.config spec).maxAttempts - (n + 1) + 1 =
          (gateway.catalog.config spec).maxAttempts - n := by
        have more := bounded.1
        omega
      rw [before]
      unfold step deliver Call.resume
      rw [here]
      refine ⟨?_, Call.bounded_attempt s.call spec bounded.1 _⟩
      dsimp only
      rw [Call.recovering_attempt modelId s.call spec (n + 1)
        ((gateway.catalog.config spec).maxAttempts - (n + 1))
        (Nat.add_sub_cancel' bounded.1) _ s.breakers, left, again, oversleep]
  | delivering spec r =>
      unfold step deliver Call.resume Call.recovering
      rw [here]
      exact ⟨rfl, trivial⟩
  | ended ending =>
      unfold step deliver Call.resume
      rw [here]
      refine ⟨?_, ?_⟩
      · unfold Call.recovering
        dsimp only
      · unfold Call.Bounded
        dsimp only
        rw [here]
        trivial

/-- The first attempt is of the model the chain begins with. -/
def Call.Led (modelId : String) (call : Call ρ) : Prop :=
  match call.attempts with
  | first :: _ => first.modelId = modelId
  | [] =>
      match call.point with
      | .choosing => ∀ spec ∈ call.targets.head?, spec.id = modelId
      | .invoking spec _ _ _ => spec.id = modelId
      | .ended _ => True
      | _ => False

variable (gateway blocked) in
/-- Attempts are only added. -/
theorem Solo.step_attempts (s : Solo ρ) (e : Entry ρ) :
    ∃ more, (s.step gateway .chat blocked e).call.attempts = s.call.attempts ++ more := by
  have attempted : ∀ (call : Call ρ) (spec : ModelSpec) (n : Nat) (now : ℚ),
      (call.attempt gateway spec n now).1.attempts = call.attempts := by
    intro call spec n now
    rcases Call.attempt_cases gateway call spec n now with ⟨-, shape⟩ | ⟨-, shape⟩ <;> rw [shape]
  unfold step Call.resume
  cases here : s.call.point with
  | choosing =>
      dsimp only
      rcases Call.choose_cases gateway .chat blocked s.call (s.deliver e).2 s.breakers with
        ⟨skips, spec, rest, -, -, chosen⟩ | ⟨skips, -, chosen⟩
      · rw [chosen]
        exact ⟨_, attempted _ spec 1 _⟩
      · rw [chosen]
        exact ⟨_, rfl⟩
  | invoking spec n started timeout =>
      dsimp only
      cases (s.deliver e).1 with
      | result r => exact ⟨_, rfl⟩
      | error err => exact ⟨_, rfl⟩
  | reporting spec n err =>
      refine ⟨[], ?_⟩
      rw [List.append_nil]
      dsimp only
      unfold Call.settle
      by_cases bad : err.kind = .badRequest
      · rw [if_pos bad]
      · rw [if_neg bad]
        cases shouldRetry gateway err spec n (s.breakers spec.id) s.call.deadline (s.deliver e).2
          e.draw <;> rfl
  | sleeping spec n until_ => exact ⟨[], (attempted _ spec (n + 1) _).trans (List.append_nil _).symm⟩
  | delivering spec r => exact ⟨[], (List.append_nil _).symm⟩
  | ended ending => exact ⟨[], (List.append_nil _).symm⟩

theorem Solo.led_step {modelId : String} {s : Solo ρ} (led : s.call.Led modelId) (e : Entry ρ) :
    (s.step gateway .chat blocked e).call.Led modelId := by
  unfold Call.Led at led
  cases before : s.call.attempts with
  | cons first rest =>
      rw [before] at led
      obtain ⟨more, after⟩ := s.step_attempts gateway blocked e
      unfold Call.Led
      rw [after, before]
      exact led
  | nil =>
      rw [before] at led
      cases here : s.call.point with
      | choosing =>
          rw [here] at led
          unfold step deliver Call.resume
          rw [here]
          dsimp only
          rcases Call.choose_cases gateway .chat blocked s.call s.now s.breakers with
            ⟨skips, spec, rest, shape, -, chosen⟩ | ⟨skips, shape, chosen⟩
          · rw [chosen]
            dsimp only
            rw [shape] at led
            rcases Call.attempt_cases gateway { s.call with
                targets := rest
                attempts := s.call.attempts ++ skips.map fun s => skipRecord .chat s.1 s.2 }
              spec 1 s.now with ⟨-, attempted⟩ | ⟨-, attempted⟩
            · rw [attempted]
              unfold Call.Led
              dsimp only
              rw [before]
              cases skips with
              | nil => trivial
              | cons skip skips => exact led _ rfl
            · rw [attempted]
              unfold Call.Led
              dsimp only
              rw [before]
              cases skips with
              | nil => exact led _ rfl
              | cons skip skips => exact led _ rfl
          · rw [chosen]
            unfold Call.Led
            dsimp only
            rw [before]
            cases skips with
            | nil => trivial
            | cons skip skips =>
                rw [← shape] at led
                exact led _ rfl
      | invoking spec n started timeout =>
          rw [here] at led
          unfold step Call.resume
          rw [here]
          dsimp only
          cases (s.deliver e).1 with
          | result r =>
              unfold Call.Led Call.succeed
              dsimp only
              rw [before]
              exact led
          | error err =>
              unfold Call.Led Call.fail
              dsimp only
              rw [before]
              exact led
      | ended ending =>
          unfold step Call.resume
          rw [here]
          unfold Call.Led
          dsimp only
          rw [before, here]
          trivial
      | _ =>
          rw [here] at led
          exact led.elim

/-- What the script says of a call that is over. -/
theorem recovers_of_run {targets : List ModelSpec} {deadlineS now : ℚ} {breakers : Breakers}
    {s : Solo ρ} {entries : List (Entry ρ)}
    (called : Run (Guarded (Solo.Scripted trials) (StepOf (Solo.step gateway .chat blocked)))
      (Solo.start targets deadlineS now breakers) entries s) :
    ∃ modelId, s.call.Led modelId ∧
      recovers gateway blocked (now + deadlineS) trials targets now breakers =
        s.call.recovering gateway blocked trials modelId s.now s.breakers := by
  let modelId := (targets.head?.map ModelSpec.id).getD ""
  let Keeps : Solo ρ → Prop := fun t => t.call.Led modelId ∧ t.call.Bounded gateway ∧
    t.call.recovering gateway blocked trials modelId t.now t.breakers =
      recovers gateway blocked (now + deadlineS) trials targets now breakers
  have kept : Keeps s := by
    refine called.invariant ?_ ⟨?_, trivial, ?_⟩
    · rintro t e _ ⟨scripted, rfl⟩ ⟨led, bounded, same⟩
      obtain ⟨next, room⟩ : (t.step gateway .chat blocked e).call.recovering gateway blocked trials
            modelId (t.step gateway .chat blocked e).now (t.step gateway .chat blocked e).breakers =
          t.call.recovering gateway blocked trials modelId t.now t.breakers ∧
          (t.step gateway .chat blocked e).call.Bounded gateway :=
        Solo.recovering_step modelId bounded scripted
      exact ⟨Solo.led_step led e, room, next.trans same⟩
    · show ∀ spec ∈ targets.head?, spec.id = modelId
      intro spec there
      show spec.id = (targets.head?.map ModelSpec.id).getD ""
      rw [Option.mem_def.mp there]
      rfl
    · cases targets with
      | nil => rfl
      | cons spec rest => rfl
  exact ⟨modelId, kept.1, kept.2.2.symm⟩

/-- **A stream that fails only before its first token agrees with the call on the same script, if and
only if the model the chain begins with does not serve it at a later attempt than its first.** -/
theorem stream_agrees_iff {targets : List ModelSpec} {route : String} {deadlineS now : ℚ}
    {breakers : Breakers} {entries : List (Entry ρ)} {entries' : List StreamEntry} {s : Solo ρ}
    {ending : Ending ρ} {t : StreamSolo} (allChat : gateway.AllChat)
    (called : Run (Guarded (Solo.Scripted trials) (StepOf (Solo.step gateway .chat blocked)))
      (Solo.start targets deadlineS now breakers) entries s)
    (ceased : s.call.point = .ended ending)
    (streamed : Run (Guarded (StreamSolo.Scripted trials) (StepOf (StreamSolo.step gateway blocked)))
      (StreamSolo.start route targets deadlineS now breakers) entries' t)
    (consumed : t.stream.point = .ended false) (unbroken : t.Unbroken) :
    Agrees s ending t ↔
      recovers gateway blocked (now + deadlineS) trials targets now breakers = false := by
  have start : InStep (Solo.start targets deadlineS now breakers : Solo ρ)
      (StreamSolo.start route targets deadlineS now breakers) :=
    ⟨⟨rfl, rfl, rfl, rfl, rfl, rfl⟩, trivial⟩
  have nearly := start.nearly allChat called streamed ceased consumed unbroken
  obtain ⟨modelId, led, condition⟩ := recovers_of_run called
  rw [condition]
  unfold Call.recovering
  rw [ceased]
  rcases nearly.announced with ⟨code, rfl, none⟩ | ⟨r, spec, n, before, rfl, made, announced⟩
  · refine iff_of_true ⟨nearly.attempts, nearly.breakers, nearly.verdict, ?_, ?_⟩ (by simp)
    · rw [none]
      exact fun _ mem => absurd mem List.not_mem_nil
    · rw [none]
      exact fun _ mem => absurd mem List.not_mem_nil
  have flag : Agrees s (.returned r spec) t ↔
      (!before.isEmpty) = fallbackUsed s.call.attempts spec := by
    constructor
    · intro agrees
      exact agrees.fallback (spec, !before.isEmpty) (by rw [announced]; exact List.mem_singleton.mpr rfl)
    · intro same
      refine ⟨nearly.attempts, nearly.breakers, nearly.verdict, ?_, ?_⟩
      · rw [announced]
        intro a mem
        rw [List.mem_singleton.mp mem]
        rfl
      · rw [announced]
        intro a mem
        rw [List.mem_singleton.mp mem]
        exact same
  have length : s.call.attempts.length = before.length + 1 := by
    rw [← List.length_map AttemptRecord.tally, made, List.length_append]
    rfl
  have used : fallbackUsed s.call.attempts spec = before.any fun b => b.modelId != spec.id := by
    have tallied : fallbackUsed s.call.attempts spec =
        (s.call.attempts.map AttemptRecord.tally).any fun b => b.modelId != spec.id := by
      rw [List.any_map]
      rfl
    rw [tallied, made, List.any_append]
    simp
  have named : (s.call.attempts.all fun a => a.modelId == modelId) =
      ((before.all fun b => b.modelId == modelId) && spec.id == modelId) := by
    have tallied : (s.call.attempts.all fun a => a.modelId == modelId) =
        (s.call.attempts.map AttemptRecord.tally).all fun b => b.modelId == modelId := by
      rw [List.all_map]
      rfl
    rw [tallied, made, List.all_append]
    simp
  rw [flag, used]
  dsimp only
  rw [named, length]
  cases before with
  | nil => simp
  | cons first rest =>
      have heads : first.modelId = modelId := by
        unfold Call.Led at led
        cases shape : s.call.attempts with
        | nil =>
            rw [shape] at made
            cases made
        | cons a more =>
            rw [shape] at led made
            rw [← (List.cons.inj made).1]
            exact led
      have lengths : ((first :: rest).length + 1 != 1) = true := rfl
      rw [lengths, Bool.and_true, Bool.and_assoc, Bool.and_self, Bool.and_eq_false_iff]
      constructor
      · intro differs
        obtain ⟨b, mem, other⟩ := List.any_eq_true.mp differs.symm
        by_cases same : spec.id = modelId
        · left
          rw [List.all_eq_false]
          refine ⟨b, mem, ?_⟩
          rw [← same]
          simpa using other
        · right
          simpa using same
      · intro apart
        symm
        by_contra none
        have each : ∀ b ∈ first :: rest, b.modelId = spec.id := by
          intro b mem
          have same := List.any_eq_false.mp (Bool.eq_false_iff.mpr none) b mem
          simpa using same
        have whole : spec.id = modelId := (each first List.mem_cons_self).symm.trans heads
        rcases apart with apart | apart
        · obtain ⟨b, mem, other⟩ := List.all_eq_false.mp apart
          rw [each b mem, whole] at other
          simp at other
        · rw [whole] at apart
          simp at apart

end

/-! ## Poles -/

section Poles

/-- The first attempt fails, the second serves. -/
def poleTrials : Nat → Trial
  | 0 => { fault := some .unavailable }
  | _ => {}

def poleReply : Entry Unit := { outcome := .result () }

def poleFault : Entry Unit := { outcome := .error { kind := .unavailable } }

def poleItem : StreamEntry := { arrival := .item (.finish none) }

def poleBroken : StreamEntry := { arrival := .error { kind := .unavailable } }

def poleCalled (entries : List (Entry Unit)) : Solo Unit :=
  entries.foldl (Solo.step poleGateway .chat []) (Solo.start [poleLocal] 120 0 poleBreakers)

def poleStreamed (entries : List StreamEntry) : StreamSolo :=
  entries.foldl (StreamSolo.step poleGateway [])
    (StreamSolo.start "both" [poleLocal] 120 0 poleBreakers)

/-- Whether a call was served by the local model. -/
def poleServed (call : Call Unit) : Bool :=
  match call.point with
  | .ended (.returned _ spec) => spec == poleLocal
  | _ => false

theorem poleServed_iff {call : Call Unit} (served : poleServed call = true) :
    call.point = .ended (.returned () poleLocal) := by
  unfold poleServed at served
  split at served
  · rename_i point
    rw [point, eq_of_beq served]
  · cases served

theorem poleAllChat : poleGateway.AllChat := by
  unfold LLMGateway.AllChat
  decide

/-- The local model serves at its second attempt: the call has used no fallback, the stream says it
has. -/
theorem retry_is_no_fallback :
    ∃ (s : Solo Unit) (t : StreamSolo),
      Run (Guarded (Solo.Scripted poleTrials) (StepOf (Solo.step poleGateway .chat [])))
        (Solo.start [poleLocal] 120 0 poleBreakers)
        [poleReply, poleFault, poleReply, poleReply, poleReply, poleReply] s ∧
      s.call.point = .ended (.returned () poleLocal) ∧
      Run (Guarded (StreamSolo.Scripted poleTrials) (StepOf (StreamSolo.step poleGateway [])))
        (StreamSolo.start "both" [poleLocal] 120 0 poleBreakers)
        [poleItem, poleBroken, poleItem, poleItem, poleItem, poleItem, poleItem, poleItem, poleItem] t ∧
      t.stream.point = .ended false ∧ t.Unbroken ∧ poleGateway.AllChat ∧
      fallbackUsed s.call.attempts poleLocal = false ∧
      (events t.trace).filterMap StreamEvent.announced? = [(poleLocal, true)] ∧
      ¬Agrees s (.returned () poleLocal) t := by
  have called := Run.guarded_of_keepsTo
    (show Run.keepsTo (Solo.Scripted poleTrials) (Solo.step poleGateway .chat [])
      (Solo.start [poleLocal] 120 0 poleBreakers)
      [poleReply, poleFault, poleReply, poleReply, poleReply, poleReply] = true by decide +kernel)
  have streamed := Run.guarded_of_keepsTo
    (show Run.keepsTo (StreamSolo.Scripted poleTrials) (StreamSolo.step poleGateway [])
      (StreamSolo.start "both" [poleLocal] 120 0 poleBreakers)
      [poleItem, poleBroken, poleItem, poleItem, poleItem, poleItem, poleItem, poleItem, poleItem] =
        true by decide +kernel)
  have unused : fallbackUsed (poleCalled
      [poleReply, poleFault, poleReply, poleReply, poleReply, poleReply]).call.attempts poleLocal =
      false := by decide +kernel
  have announced : (events (poleStreamed [poleItem, poleBroken, poleItem, poleItem, poleItem,
      poleItem, poleItem, poleItem, poleItem]).trace).filterMap StreamEvent.announced? =
      [(poleLocal, true)] := by decide +kernel
  refine ⟨_, _, called, poleServed_iff ?_, streamed, ?_, ?_, poleAllChat, unused, announced, ?_⟩
  · decide +kernel
  · decide +kernel
  · unfold StreamSolo.Unbroken
    decide +kernel
  · intro agrees
    have same := agrees.fallback (poleLocal, true) (by
      have one := List.mem_singleton_self (poleLocal, true)
      rw [← announced] at one
      exact one)
    exact Bool.noConfusion (same.trans unused)

theorem stream_agrees_iff_pole :
    Agrees (poleCalled [poleReply, poleReply, poleReply]) (.returned () poleLocal)
      (poleStreamed [poleItem, poleItem, poleItem, poleItem, poleItem]) := by
  have called := Run.guarded_of_keepsTo
    (show Run.keepsTo (Solo.Scripted fun _ => {}) (Solo.step poleGateway .chat [])
      (Solo.start [poleLocal] 120 0 poleBreakers) [poleReply, poleReply, poleReply] = true by
        decide +kernel)
  have streamed := Run.guarded_of_keepsTo
    (show Run.keepsTo (StreamSolo.Scripted fun _ => {}) (StreamSolo.step poleGateway [])
      (StreamSolo.start "both" [poleLocal] 120 0 poleBreakers)
      [poleItem, poleItem, poleItem, poleItem, poleItem] = true by decide +kernel)
  have ceased : (poleCalled [poleReply, poleReply, poleReply]).call.point =
      .ended (.returned () poleLocal) := poleServed_iff (by decide +kernel)
  have unbroken : (poleStreamed [poleItem, poleItem, poleItem, poleItem, poleItem]).Unbroken := by
    unfold StreamSolo.Unbroken
    decide +kernel
  exact (stream_agrees_iff poleAllChat called ceased streamed (by decide +kernel) unbroken).mpr
    (by decide +kernel)

end Poles

end OpsAssist.Gateway
