/-
# OpsAssist.Gateway.Streams -- the streaming loop

`stream_chat` as a coroutine that waits for the provider's items, for its records, sleeps
and closings, and at each event for its consumer.  Fallback is only possible before the
first item.  `StreamSolo` runs one stream by a script of what its provider does.

`Stream.choose_cases` says what turning to the next target does.
-/
import OpsAssist.Gateway.Targets

namespace OpsAssist.Gateway

set_option autoImplicit false

/-! ## The loop -/

/-- Usage and cost are left out. -/
inductive StreamEvent where
  | started (spec : ModelSpec) (route : String) (fallbackUsed : Bool)
  | delta (text : String)
  | completed (spec : ModelSpec) (finishReason : Option String) (latency ttft : ℚ)
      (attempts : List AttemptRecord)
  | failed (code : GatewayErrorCode) (message : String) (started : Bool)
      (attempts : List AttemptRecord)
deriving DecidableEq

/-- What a stream leaves in the log: the notes of the call loops, what it received from
its provider and what it handed on. -/
inductive StreamNote where
  | note (note : Note)
  | received (spec : ModelSpec) (n : Nat) (item : StreamItem)
  | event (event : StreamEvent)
deriving DecidableEq

/-- What `anext` brings. -/
inductive Arrival where
  | item (item : StreamItem)
  /-- the provider's stream is over -/
  | exhausted
  | error (err : ProviderError)

inductive StreamAnswer where
  /-- it may go on; an item arrived where one was waited for -/
  | proceed (arrival : Arrival) (draw : ℚ)
  | raised
  /-- cancelled while waiting, or closed by the consumer -/
  | cancelled

/-- An attempt under way, with when it started. -/
structure Attempt where
  spec : ModelSpec
  n : Nat
  started : ℚ
deriving DecidableEq

/-- Where a stream stands. -/
inductive StreamPoint where
  | choosing
  /-- waiting for the first item -/
  | opening (a : Attempt) (timeout : ℚ)
  /-- `StreamStarted` handed on, with the first item in hand -/
  | announced (a : Attempt) (ttft : ℚ) (item : StreamItem)
  /-- a delta handed on -/
  | passing (a : Attempt) (ttft : ℚ)
  /-- waiting for the next item -/
  | waiting (a : Attempt) (ttft : ℚ) (since idle : ℚ)
  | completing (a : Attempt) (ttft : ℚ) (finishReason : Option String)
  | reporting (a : Attempt) (err : ProviderError) (emitted : Bool)
  | sleeping (spec : ModelSpec) (n : Nat) (until_ : ℚ)
  /-- closing the provider's stream; then attempt `n` or the next target -/
  | closing (again : Option (ModelSpec × Nat))
  /-- the last event handed on -/
  | finished
  | ended (aborted : Bool)
deriving DecidableEq

structure Stream where
  route : String
  targets : List ModelSpec
  deadline : ℚ
  requested : ℚ
  attempts : List AttemptRecord := []
  point : StreamPoint := .choosing

namespace Stream

variable (gateway : LLMGateway) (blocked : List String)

/-- Hand on the last event. -/
def close (stream : Stream) (event : StreamEvent) : Stream × StreamNote :=
  ({ stream with point := .finished }, .event event)

def attempt (stream : Stream) (spec : ModelSpec) (n : Nat) (now : ℚ) : Stream × List StreamNote :=
  if stream.deadline - now ≤ 0 then
    let closed := stream.close
      (.failed .deadlineExceeded "request deadline exceeded" false stream.attempts)
    (closed.1, [.note (.late spec n now), closed.2])
  else
    let timeout := min (gateway.catalog.config spec).timeoutS (stream.deadline - now)
    ({ stream with point := .opening ⟨spec, n, now⟩ timeout },
      [.note (.started spec n now timeout)])

def choose (stream : Stream) (now : ℚ) (breakers : Breakers) : Segment Stream StreamNote :=
  let choice := nextTarget gateway.chatProvider blocked now stream.targets breakers
  let attempts := stream.attempts ++ choice.skips.map fun s => skipRecord .chat s.1 s.2
  let notes := choice.skips.map fun s => StreamNote.note (.skipped s.1 s.2)
  match choice.found with
  | none =>
      let closed := { stream with targets := [], attempts }.close
        (.failed (exhausted attempts) "no model provider could serve the request" false attempts)
      { state := closed.1, breakers := choice.breakers, notes := notes ++ [closed.2] }
  | some (spec, rest) =>
      let begun := { stream with targets := rest, attempts }.attempt gateway spec 1 now
      { state := begun.1, breakers := choice.breakers, notes := notes ++ begun.2 }

/-- `except ProviderError` -/
def fail (stream : Stream) (a : Attempt) (ttft : Option ℚ) (now : ℚ) (err : ProviderError)
    (emitted : Bool) (breakers : Breakers) : Segment Stream StreamNote :=
  let after := updateBreaker breakers a.spec err now
  { state := { stream with
      attempts := stream.attempts ++ [failedRecord .chat a.spec a.n a.started now ttft err]
      point := .reporting a err emitted },
    breakers := after,
    notes := [.note (.failed a.spec a.n err now (breakers a.spec.id) (after a.spec.id))] }

/-- Hand on a delta, or record the end of the stream. -/
def pass (stream : Stream) (a : Attempt) (ttft : ℚ) (now : ℚ) (item : StreamItem)
    (breakers : Breakers) : Segment Stream StreamNote :=
  match item with
  | .delta text =>
      { state := { stream with point := .passing a ttft }, breakers,
        notes := [.event (.delta text)] }
  | .finish reason =>
      let after := (breakers a.spec.id).recordSuccess
      { state := { stream with
          attempts := stream.attempts ++
            [successRecord .chat a.spec a.n a.started now (some ttft)]
          point := .completing a ttft reason },
        breakers := breakers.set a.spec.id after,
        notes := [.note (.succeeded a.spec a.n now (breakers a.spec.id) after)] }

/-- `StopAsyncIteration` while an item was waited for. -/
def unmarked (spec : ModelSpec) : ProviderError :=
  providerError .responseError spec.provider "stream ended without a completion marker"

/-- After the record of a failure. -/
def settle (stream : Stream) (a : Attempt) (err : ProviderError) (emitted : Bool) (now draw : ℚ)
    (breakers : Breakers) : Segment Stream StreamNote :=
  if emitted then
    let closed := stream.close (.failed .providerErrorMidStream
      "the model provider failed while streaming; the answer is incomplete" true stream.attempts)
    { state := closed.1, breakers, notes := [closed.2] }
  else if err.kind = .badRequest then
    let closed := stream.close
      (.failed .badRequest "the model rejected the request" false stream.attempts)
    { state := closed.1, breakers, notes := [closed.2] }
  else
    match shouldRetry gateway err a.spec a.n (breakers a.spec.id) stream.deadline now draw with
    | none => { state := { stream with point := .closing none }, breakers }
    | some delay =>
        { state := { stream with point := .sleeping a.spec a.n (now + delay) }, breakers,
          notes := [.note (.scheduled a.spec a.n delay now (breakers a.spec.id))] }

def abort (stream : Stream) (breakers : Breakers) : Segment Stream StreamNote :=
  { state := { stream with point := .ended true }, breakers }

/-- From one point of waiting to the next. -/
def proceed (stream : Stream) (arrival : Arrival) (draw now : ℚ) (breakers : Breakers) :
    Segment Stream StreamNote :=
  match stream.point with
  | .choosing => stream.choose gateway blocked now breakers
  | .opening a _ =>
      match arrival with
      | .item item =>
          { state := { stream with point := .announced a (now - a.started) item }, breakers,
            notes := [.received a.spec a.n item,
              .event (.started a.spec stream.route !stream.attempts.isEmpty)] }
      | .exhausted => stream.fail a none now (unmarked a.spec) false breakers
      | .error err => stream.fail a none now err false breakers
  | .announced a ttft item => stream.pass a ttft now item breakers
  | .passing a ttft =>
      let idle := min gateway.config.streamIdleTimeoutS (stream.deadline - now)
      if idle ≤ 0 then
        stream.fail a (some ttft) now
          (providerError .timeout a.spec.provider "stream exceeded request deadline") true breakers
      else { state := { stream with point := .waiting a ttft now idle }, breakers }
  | .waiting a ttft _ _ =>
      match arrival with
      | .item item =>
          let passed := stream.pass a ttft now item breakers
          { passed with notes := .received a.spec a.n item :: passed.notes }
      | .exhausted => stream.fail a (some ttft) now (unmarked a.spec) true breakers
      | .error err => stream.fail a (some ttft) now err true breakers
  | .completing a ttft reason =>
      let closed := stream.close
        (.completed a.spec reason (now - stream.requested) ttft stream.attempts)
      { state := closed.1, breakers, notes := [closed.2] }
  | .reporting a err emitted => stream.settle gateway a err emitted now draw breakers
  | .sleeping spec n _ =>
      { state := { stream with point := .closing (some (spec, n + 1)) }, breakers }
  | .closing none => { state := { stream with point := .choosing }, breakers }
  | .closing (some (spec, n)) =>
      let begun := stream.attempt gateway spec n now
      { state := begun.1, breakers, notes := begun.2 }
  | .finished => { state := { stream with point := .ended false }, breakers }
  | .ended _ => { state := stream, breakers }

/-- With exceptions: a recorder that fails is logged and the stream goes on; anything else
ends it. -/
def resume (stream : Stream) (answer : StreamAnswer) (now : ℚ) (breakers : Breakers) :
    Segment Stream StreamNote :=
  match answer, stream.point with
  | .proceed arrival draw, _ => stream.proceed gateway blocked arrival draw now breakers
  | _, .choosing | _, .ended _ => stream.proceed gateway blocked .exhausted 0 now breakers
  | .raised, .completing _ _ _ | .raised, .reporting _ _ _ =>
      stream.proceed gateway blocked .exhausted 0 now breakers
  | _, _ => stream.abort breakers

end Stream

/-! ## Its segments -/

namespace Stream

theorem attempt_cases (gateway : LLMGateway) (stream : Stream) (spec : ModelSpec) (n : Nat)
    (now : ℚ) :
    (stream.deadline ≤ now ∧ stream.attempt gateway spec n now =
      ({ stream with point := .finished }, [.note (.late spec n now), .event
        (.failed .deadlineExceeded "request deadline exceeded" false stream.attempts)])) ∨
    (now < stream.deadline ∧ ∃ timeout, stream.attempt gateway spec n now =
      ({ stream with point := .opening ⟨spec, n, now⟩ timeout },
        [.note (.started spec n now timeout)])) := by
  unfold attempt
  by_cases late : stream.deadline ≤ now
  · left
    rw [if_pos (sub_nonpos.mpr late)]
    exact ⟨late, rfl⟩
  · right
    rw [if_neg fun h => late (sub_nonpos.mp h)]
    exact ⟨not_le.mp late, _, rfl⟩

/-- **Turning to the next target.** -/
theorem choose_cases (gateway : LLMGateway) (blocked : List String) (stream : Stream) (now : ℚ)
    (breakers : Breakers) :
    (∃ (skips : List (ModelSpec × String)) (spec : ModelSpec) (rest : List ModelSpec),
      stream.targets = skips.map Prod.fst ++ spec :: rest ∧
      Admissible gateway.chatProvider blocked now breakers spec ∧
      stream.choose gateway blocked now breakers =
        { state := (attempt gateway
            { stream with
              targets := rest
              attempts := stream.attempts ++ skips.map fun s => skipRecord .chat s.1 s.2 }
            spec 1 now).1,
          breakers := breakers.set spec.id ((breakers spec.id).admitted now),
          notes := (skips.map fun s => StreamNote.note (.skipped s.1 s.2)) ++ (attempt gateway
            { stream with
              targets := rest
              attempts := stream.attempts ++ skips.map fun s => skipRecord .chat s.1 s.2 }
            spec 1 now).2 }) ∨
    (∃ skips : List (ModelSpec × String), skips.map Prod.fst = stream.targets ∧
      stream.choose gateway blocked now breakers =
        { state := { stream with
            targets := []
            attempts := stream.attempts ++ skips.map fun s => skipRecord .chat s.1 s.2
            point := .finished },
          breakers,
          notes := (skips.map fun s => StreamNote.note (.skipped s.1 s.2)) ++ [.event (.failed
            (exhausted (stream.attempts ++ skips.map fun s => skipRecord .chat s.1 s.2))
            "no model provider could serve the request" false
            (stream.attempts ++ skips.map fun s => skipRecord .chat s.1 s.2))] }) := by
  unfold choose
  rcases nextTarget_cases gateway.chatProvider blocked now stream.targets breakers with
    ⟨before, spec, rest, shape, -, ready, here, passed, left⟩ | ⟨-, here, passed, left⟩
  · left
    refine ⟨_, spec, rest, by rw [passed, shape], ready, ?_⟩
    dsimp only
    rw [here, left]
  · right
    refine ⟨_, passed, ?_⟩
    dsimp only
    rw [here, left]
    rfl

end Stream

/-! ## What a stream touches -/

/-- The target of the attempt a note of a stream starts. -/
def StreamNote.target? : StreamNote → Option ModelSpec
  | .note n => n.invoked?
  | _ => none

/-- The target of an attempt under way or to be repeated. -/
def StreamPoint.current : StreamPoint → Option ModelSpec
  | .opening a _ | .announced a _ _ | .passing a _ | .waiting a _ _ _ | .completing a _ _
  | .reporting a _ _ => some a.spec
  | .sleeping spec _ _ | .closing (some (spec, _)) => some spec
  | .choosing | .closing none | .finished | .ended _ => none

/-- Every target the stream has or will turn to has the property. -/
def Stream.Within (P : ModelSpec → Prop) (stream : Stream) : Prop :=
  (∀ t ∈ stream.targets, P t) ∧ ∀ spec ∈ stream.point.current, P spec

namespace Stream

variable {P : ModelSpec → Prop}

/-- A segment stays within and is confined. -/
def StaysWithin (P : ModelSpec → Prop) (breakers : Breakers)
    (segment : Segment Stream StreamNote) : Prop :=
  segment.state.Within P ∧
    Confined P breakers segment.breakers (segment.notes.filterMap StreamNote.target?)

theorem attempt_within (gateway : LLMGateway) (stream : Stream)
    (targets : ∀ t ∈ stream.targets, P t) {spec : ModelSpec} (here : P spec) (n : Nat) (now : ℚ) :
    (stream.attempt gateway spec n now).1.Within P ∧
      ∀ t ∈ (stream.attempt gateway spec n now).2.filterMap StreamNote.target?, P t := by
  rcases attempt_cases gateway stream spec n now with
    ⟨-, attempted⟩ | ⟨-, timeout, attempted⟩
  · rw [attempted]
    exact ⟨⟨targets, fun _ none => nomatch none⟩, fun _ mem => absurd mem List.not_mem_nil⟩
  · rw [attempted]
    refine ⟨⟨targets, ?_⟩, ?_⟩
    · rintro t ⟨⟩
      exact here
    · intro t mem
      rw [List.mem_singleton.mp mem]
      exact here

theorem skips_untargeted (skips : List (ModelSpec × String)) :
    (skips.map fun s => StreamNote.note (.skipped s.1 s.2)).filterMap StreamNote.target? = [] := by
  induction skips with
  | nil => rfl
  | cons s skips ih => exact ih

theorem choose_within {gateway : LLMGateway} {blocked : List String} {stream : Stream}
    (targets : ∀ t ∈ stream.targets, P t) (now : ℚ) (breakers : Breakers) :
    StaysWithin P breakers (stream.choose gateway blocked now breakers) := by
  rcases choose_cases gateway blocked stream now breakers with
    ⟨skips, spec, rest, shape, -, chosen⟩ | ⟨skips, -, chosen⟩
  · rw [chosen]
    have later : ∀ t ∈ rest, P t := fun t mem => targets t (by rw [shape]; simp [mem])
    have here : P spec := targets spec (by rw [shape]; simp)
    have begun := attempt_within gateway { stream with
      targets := rest
      attempts := stream.attempts ++ skips.map fun s => skipRecord .chat s.1 s.2 }
      later here 1 now
    refine ⟨begun.1, .set here breakers _ ?_⟩
    rw [List.filterMap_append, skips_untargeted, List.nil_append]
    exact begun.2
  · rw [chosen]
    refine ⟨⟨fun _ mem => absurd mem List.not_mem_nil, fun _ none => nomatch none⟩, ?_⟩
    rw [List.filterMap_append, skips_untargeted]
    exact .refl breakers

theorem fail_within {stream : Stream} (targets : ∀ t ∈ stream.targets, P t) {a : Attempt}
    (here : P a.spec) (ttft : Option ℚ) (now : ℚ) (err : ProviderError) (emitted : Bool)
    (breakers : Breakers) :
    StaysWithin P breakers (stream.fail a ttft now err emitted breakers) := by
  refine ⟨⟨targets, ?_⟩, .update here breakers err now⟩
  rintro t ⟨⟩
  exact here

theorem pass_within {stream : Stream} (targets : ∀ t ∈ stream.targets, P t) {a : Attempt}
    (here : P a.spec) (ttft now : ℚ) (item : StreamItem) (breakers : Breakers) :
    StaysWithin P breakers (stream.pass a ttft now item breakers) := by
  cases item with
  | delta text =>
      refine ⟨⟨targets, ?_⟩, .refl breakers⟩
      rintro t ⟨⟩
      exact here
  | finish reason =>
      refine ⟨⟨targets, ?_⟩, .set here breakers _ fun _ mem => absurd mem List.not_mem_nil⟩
      rintro t ⟨⟩
      exact here

theorem settle_within {gateway : LLMGateway} {stream : Stream}
    (targets : ∀ t ∈ stream.targets, P t) {a : Attempt} (here : P a.spec) (err : ProviderError)
    (emitted : Bool) (now draw : ℚ) (breakers : Breakers) :
    StaysWithin P breakers (stream.settle gateway a err emitted now draw breakers) := by
  unfold settle
  split
  · exact ⟨⟨targets, fun _ none => nomatch none⟩, .refl breakers⟩
  · split
    · exact ⟨⟨targets, fun _ none => nomatch none⟩, .refl breakers⟩
    · split
      · exact ⟨⟨targets, fun _ none => nomatch none⟩, .refl breakers⟩
      · refine ⟨⟨targets, ?_⟩, .refl breakers⟩
        rintro t ⟨⟩
        exact here

/-- **A stream starts attempts and touches breakers only of its targets.** -/
theorem proceed_within {gateway : LLMGateway} {blocked : List String} {stream : Stream}
    (within : stream.Within P) (arrival : Arrival) (draw now : ℚ) (breakers : Breakers) :
    StaysWithin P breakers (stream.proceed gateway blocked arrival draw now breakers) := by
  obtain ⟨targets, current⟩ := within
  unfold proceed
  cases point : stream.point with
  | choosing => exact choose_within targets now breakers
  | opening a timeout =>
      have here : P a.spec := current a.spec (by rw [point]; rfl)
      cases arrival with
      | item item =>
          refine ⟨⟨targets, ?_⟩, .refl breakers⟩
          rintro t ⟨⟩
          exact here
      | exhausted => exact fail_within targets here none now _ false breakers
      | error err => exact fail_within targets here none now err false breakers
  | announced a ttft item =>
      exact pass_within targets (current a.spec (by rw [point]; rfl)) ttft now item breakers
  | passing a ttft =>
      have here : P a.spec := current a.spec (by rw [point]; rfl)
      dsimp only
      split
      · exact fail_within targets here (some ttft) now _ true breakers
      · refine ⟨⟨targets, ?_⟩, .refl breakers⟩
        rintro t ⟨⟩
        exact here
  | waiting a ttft since idle =>
      have here : P a.spec := current a.spec (by rw [point]; rfl)
      cases arrival with
      | item item => exact pass_within targets here ttft now item breakers
      | exhausted => exact fail_within targets here (some ttft) now _ true breakers
      | error err => exact fail_within targets here (some ttft) now err true breakers
  | completing a ttft reason =>
      exact ⟨⟨targets, fun _ none => nomatch none⟩, .refl breakers⟩
  | reporting a err emitted =>
      exact settle_within targets (current a.spec (by rw [point]; rfl)) err emitted now draw breakers
  | sleeping spec n until_ =>
      have here : P spec := current spec (by rw [point]; rfl)
      refine ⟨⟨targets, ?_⟩, .refl breakers⟩
      rintro t ⟨⟩
      exact here
  | closing again =>
      cases again with
      | none => exact ⟨⟨targets, fun _ none => nomatch none⟩, .refl breakers⟩
      | some next =>
          have begun := attempt_within gateway stream targets
            (current next.1 (by rw [point]; rfl)) next.2 now
          exact ⟨begun.1, begun.2, fun _ _ => rfl⟩
  | finished => exact ⟨⟨targets, fun _ none => nomatch none⟩, .refl breakers⟩
  | ended aborted => exact ⟨⟨targets, current⟩, .refl breakers⟩

end Stream

/-! ## One stream alone -/

/-- What the surroundings do at one point of waiting: what the provider brings and when,
how long a record, a closing or the consumer takes, how much longer than asked a sleep
lasts, the random draw. -/
structure StreamEntry where
  arrival : Arrival
  duration : ℚ := 0
  draw : ℚ := 0

structure StreamSolo where
  stream : Stream
  breakers : Breakers
  now : ℚ
  trace : List StreamNote := []

namespace StreamSolo

variable (gateway : LLMGateway) (blocked : List String)

/-- `_next_item`: what does not arrive in time is a timeout. -/
def nextItem (spec : ModelSpec) (since timeout : ℚ) (phase : String) (e : StreamEntry) :
    Arrival × ℚ :=
  if e.duration < timeout then (e.arrival, since + e.duration)
  else
    (.error (providerError .timeout spec.provider
      ("no data within " ++ tenths timeout ++ "s (" ++ phase ++ ")")), since + timeout)

/-- What the stream receives at its point of waiting, and when. -/
def deliver (s : StreamSolo) (e : StreamEntry) : Arrival × ℚ :=
  match s.stream.point with
  | .choosing | .ended _ => (e.arrival, s.now)
  | .opening a timeout => nextItem a.spec a.started timeout "first token" e
  | .waiting a _ since idle => nextItem a.spec since idle "next chunk" e
  | .sleeping _ _ until_ => (e.arrival, max s.now until_ + e.duration)
  | _ => (e.arrival, s.now + e.duration)

def step (s : StreamSolo) (e : StreamEntry) : StreamSolo :=
  let given := s.deliver e
  let segment := s.stream.proceed gateway blocked given.1 e.draw given.2 s.breakers
  { stream := segment.state, breakers := segment.breakers, now := given.2,
    trace := s.trace ++ segment.notes }

/-- `stream_chat` before its first step. -/
def start (route : String) (targets : List ModelSpec) (deadlineS now : ℚ) (breakers : Breakers) :
    StreamSolo :=
  { stream := { route, targets, deadline := now + deadlineS, requested := now }, breakers, now }

/-- The stream after so many entries of a script. -/
def after (s : StreamSolo) (script : Nat → StreamEntry) : Nat → StreamSolo
  | 0 => s
  | k + 1 => (s.after script k).step gateway blocked (script k)

variable {gateway blocked}

/-- **A stream alone starts attempts and touches breakers only of its targets.** -/
theorem after_confined {P : ModelSpec → Prop} {targets : List ModelSpec}
    (within : ∀ t ∈ targets, P t) {route : String} {deadlineS now : ℚ} {breakers : Breakers}
    (script : Nat → StreamEntry) : ∀ k,
    let s := (start route targets deadlineS now breakers).after gateway blocked script k
    s.stream.Within P ∧ Confined P breakers s.breakers (s.trace.filterMap StreamNote.target?)
  | 0 => ⟨⟨within, fun _ none => nomatch none⟩, .refl breakers⟩
  | k + 1 => by
      obtain ⟨inside, before⟩ := after_confined within script k
      obtain ⟨next, later⟩ := Stream.proceed_within inside _ _ _ _
      refine ⟨next, ?_⟩
      show Confined P breakers _ (List.filterMap _ (_ ++ _))
      rw [List.filterMap_append]
      exact before.trans later

end StreamSolo

end OpsAssist.Gateway
