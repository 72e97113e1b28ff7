/-
# OpsAssist.Gateway.Concurrency -- concurrent calls and the breakers they share

An `Instance` is one process: the breakers and the calls in progress, which go on one at a
time, in any order.  What one step does to the breakers and to the attempt of its call is
its `Move` (`Task.resume_moved`).

`probes_end` and `open_breaker_stops` each name the steps that go wrong: a probe whose end
the breaker is not told, and a retry that does not ask the breaker again.
-/
import OpsAssist.Gateway.Calls
import OpsAssist.Gateway.Streams
import OpsAssist.Theory.Run

namespace OpsAssist.Gateway

set_option autoImplicit false

open Theory

section

variable {ρ : Type}

/-! ## One call of either loop -/

/-- A call, with the targets it may not send to. -/
inductive Task (ρ : Type) where
  | run (kind : ModelKind) (blocked : List String) (call : Call ρ)
  | streaming (blocked : List String) (stream : Stream)

/-- What a waiting call receives: it may go on, with the outcome of its attempt, the item
that arrived or the random draw where it waits for one; or an exception. -/
inductive Reply (ρ : Type) where
  | proceed (outcome : Outcome ρ) (arrival : Arrival) (draw : ℚ)
  | raised
  | cancelled

def Reply.answer : Reply ρ → Answer ρ
  | .proceed outcome _ draw => .proceed outcome draw
  | .raised => .raised
  | .cancelled => .cancelled

def Reply.streamAnswer : Reply ρ → StreamAnswer
  | .proceed _ arrival draw => .proceed arrival draw
  | .raised => .raised
  | .cancelled => .cancelled

/-- The notes of the call loops among those of a stream. -/
def StreamNote.inner? : StreamNote → Option Note
  | .note n => some n
  | _ => none

/-- The target of the attempt under way. -/
def Point.holding : Point ρ → Option ModelSpec
  | .invoking spec _ _ _ => some spec
  | _ => none

def StreamPoint.holding : StreamPoint → Option ModelSpec
  | .opening a _ | .announced a _ _ | .passing a _ | .waiting a _ _ _ => some a.spec
  | _ => none

/-- What a step does to the breakers and to the attempt of its call. -/
inductive Move where
  /-- nothing -/
  | rest
  /-- turn to the next target -/
  | turn
  /-- repeat the attempt after the backoff -/
  | again (spec : ModelSpec)
  /-- end the attempt and tell the breaker -/
  | record (spec : ModelSpec)
  /-- end the attempt without telling the breaker -/
  | drop (spec : ModelSpec)
deriving DecidableEq

/-- The end of an attempt by an error. -/
def Move.ofError (spec : ModelSpec) (err : ProviderError) : Move :=
  if trips err then .record spec else .drop spec

def Call.move (call : Call ρ) (answer : Answer ρ) : Move :=
  match call.point, answer with
  | .choosing, _ => .turn
  | .invoking spec _ _ _, .proceed (.result _) _ => .record spec
  | .invoking spec _ _ _, .proceed (.error err) _ => .ofError spec err
  | .invoking spec _ _ _, _ => .drop spec
  | .sleeping spec _ _, .proceed _ _ => .again spec
  | _, _ => .rest

/-- What an item does to the attempt. -/
def Move.ofItem (spec : ModelSpec) : StreamItem → Move
  | .delta _ => .rest
  | .finish _ => .record spec

def Move.ofArrival (spec : ModelSpec) : Arrival → Move
  | .item item => .ofItem spec item
  | .exhausted => .record spec
  | .error err => .ofError spec err

def Stream.move (gateway : LLMGateway) (stream : Stream) (answer : StreamAnswer) (now : ℚ) : Move :=
  match stream.point, answer with
  | .choosing, _ => .turn
  | .opening _ _, .proceed (.item _) _ => .rest
  | .opening a _, .proceed arrival _ => .ofArrival a.spec arrival
  | .announced a _ item, .proceed _ _ => .ofItem a.spec item
  | .passing a _, .proceed _ _ =>
      if min gateway.config.streamIdleTimeoutS (stream.deadline - now) ≤ 0 then .record a.spec
      else .rest
  | .waiting a _ _ _, .proceed arrival _ => .ofArrival a.spec arrival
  | .opening a _, _ | .announced a _ _, _ | .passing a _, _ | .waiting a _ _ _, _ => .drop a.spec
  | .closing (some (spec, _)), .proceed _ _ => .again spec
  | _, _ => .rest

namespace Task

variable (gateway : LLMGateway)

def targets : Task ρ → List ModelSpec
  | .run _ _ call => call.targets
  | .streaming _ stream => stream.targets

def blocked : Task ρ → List String
  | .run _ blocked _ => blocked
  | .streaming blocked _ => blocked

def deadline : Task ρ → ℚ
  | .run _ _ call => call.deadline
  | .streaming _ stream => stream.deadline

def provider : Task ρ → ModelSpec → Bool
  | .run _ _ _ => gateway.isAvailable
  | .streaming _ _ => gateway.chatProvider

def holding : Task ρ → Option ModelSpec
  | .run _ _ call => call.point.holding
  | .streaming _ stream => stream.point.holding

def isOver : Task ρ → Bool
  | .run _ _ call => match call.point with
    | .ended _ => true
    | _ => false
  | .streaming _ stream => match stream.point with
    | .ended _ => true
    | _ => false

/-- Where it gets to when it turns to its next target. -/
def choice (task : Task ρ) (now : ℚ) (breakers : Breakers) : Choice :=
  nextTarget (task.provider gateway) task.blocked now task.targets breakers

def move (task : Task ρ) (reply : Reply ρ) (now : ℚ) : Move :=
  match task with
  | .run _ _ call => call.move reply.answer
  | .streaming _ stream => stream.move gateway reply.streamAnswer now

def resume (task : Task ρ) (reply : Reply ρ) (now : ℚ) (breakers : Breakers) :
    Segment (Task ρ) Note :=
  match task with
  | .run kind blocked call =>
      let segment := call.resume gateway kind blocked reply.answer now breakers
      { state := .run kind blocked segment.state, breakers := segment.breakers,
        notes := segment.notes }
  | .streaming blocked stream =>
      let segment := stream.resume gateway blocked reply.streamAnswer now breakers
      { state := .streaming blocked segment.state, breakers := segment.breakers,
        notes := segment.notes.filterMap StreamNote.inner? }

end Task

/-- The targets of the attempts a segment starts. -/
def started (notes : List Note) : List ModelSpec := notes.filterMap Note.invoked?

/-- The attempt that begins if there is time for it. -/
def begun (deadline now : ℚ) (spec : ModelSpec) : Option ModelSpec :=
  if deadline ≤ now then none else some spec

/-- What a move says of a segment: `before` and `after` are the targets of the attempt under
way, `found` is where turning to the next target gets to. -/
def Move.Explains (found : Option ModelSpec) (deadline now : ℚ) (breakers : Breakers)
    (before : Option ModelSpec) (after : Option ModelSpec) (left : Breakers)
    (starts : List ModelSpec) : Move → Prop
  | .rest => left = breakers ∧ after = before ∧ starts = []
  | .turn => before = none ∧ after = found.bind (begun deadline now) ∧ starts = after.toList ∧
      match found with
      | none => left = breakers
      | some spec => (breakers spec.id).admits now = true ∧
          left = breakers.set spec.id ((breakers spec.id).admitted now)
  | .again spec => before = none ∧ after = begun deadline now spec ∧ starts = after.toList ∧
      left = breakers
  | .record spec => before = some spec ∧ after = none ∧ starts = [] ∧
      ∃ b : CircuitBreaker, b.probeInFlight = false ∧ left = breakers.set spec.id b
  | .drop spec => before = some spec ∧ after = none ∧ starts = [] ∧ left = breakers

/-! ## Every step is its move -/

theorem begun_of_late {deadline now : ℚ} (late : deadline ≤ now) (spec : ModelSpec) :
    begun deadline now spec = none := if_pos late

theorem begun_in_time {deadline now : ℚ} (early : now < deadline) (spec : ModelSpec) :
    begun deadline now spec = some spec := if_neg (not_le.mpr early)

theorem started_skips (skips : List (ModelSpec × String)) :
    started (skips.map fun s => Note.skipped s.1 s.2) = [] := skips_uninvoked skips

theorem started_append (notes more : List Note) :
    started (notes ++ more) = started notes ++ started more := List.filterMap_append ..

/-- The breaker an error leaves. -/
theorem updateBreaker_trips {err : ProviderError} (trip : trips err = true) (breakers : Breakers)
    (spec : ModelSpec) (now : ℚ) : ∃ b : CircuitBreaker, b.probeInFlight = false ∧
      updateBreaker breakers spec err now = breakers.set spec.id b := by
  refine ⟨_, CircuitBreaker.recordFailure_probe (breakers spec.id) now, ?_⟩
  rw [updateBreaker_eq, if_pos trip]

theorem updateBreaker_silent {err : ProviderError} (silent : trips err = false)
    (breakers : Breakers) (spec : ModelSpec) (now : ℚ) :
    updateBreaker breakers spec err now = breakers := by
  rw [updateBreaker_eq, silent]
  rfl

section

variable (gateway : LLMGateway) (kind : ModelKind) (blocked : List String)

theorem Call.attempt_begun (call : Call ρ) (spec : ModelSpec) (n : Nat) (now : ℚ) :
    (call.attempt gateway spec n now).1.point.holding = begun call.deadline now spec ∧
      started [(call.attempt gateway spec n now).2] = (begun call.deadline now spec).toList := by
  rcases attempt_cases gateway call spec n now with ⟨late, attempted⟩ | ⟨early, attempted⟩
  · rw [attempted, begun_of_late late]
    exact ⟨rfl, rfl⟩
  · rw [attempted, begun_in_time early]
    exact ⟨rfl, rfl⟩

/-- **A step of a call is its move.** -/
theorem Call.resume_moved (call : Call ρ) (answer : Answer ρ) (now : ℚ) (breakers : Breakers) :
    (call.move answer).Explains
      ((nextTarget gateway.isAvailable blocked now call.targets breakers).found.map Prod.fst)
      call.deadline now breakers call.point.holding
      (call.resume gateway kind blocked answer now breakers).state.point.holding
      (call.resume gateway kind blocked answer now breakers).breakers
      (started (call.resume gateway kind blocked answer now breakers).notes) := by
  unfold move resume
  cases here : call.point with
  | choosing =>
      show Move.turn.Explains _ _ _ _ _ _ _ _
      unfold choose
      rcases nextTarget_cases gateway.isAvailable blocked now call.targets breakers with
        ⟨before, spec, rest, -, -, ready, found, -, left⟩ | ⟨-, found, -, left⟩
      · obtain ⟨holds, starts⟩ := attempt_begun gateway { call with
          targets := rest
          attempts := call.attempts ++
            (nextTarget gateway.isAvailable blocked now call.targets breakers).skips.map
              fun s => skipRecord kind s.1 s.2 } spec 1 now
        dsimp only
        rw [found]
        refine ⟨rfl, holds, ?_, ready.2.2, left⟩
        rw [started_append, started_skips, List.nil_append, holds]
        exact starts
      · dsimp only
        rw [found]
        exact ⟨rfl, rfl, started_skips _, left⟩
  | invoking spec n at_ timeout =>
      cases answer with
      | proceed outcome draw =>
          cases outcome with
          | result r => exact ⟨rfl, rfl, rfl, _, CircuitBreaker.recordSuccess_probe _, rfl⟩
          | error err =>
              show (Move.ofError spec err).Explains _ _ _ _ _ _ _ _
              unfold Move.ofError
              cases trip : trips err with
              | true => exact ⟨rfl, rfl, rfl, updateBreaker_trips trip breakers spec now⟩
              | false => exact ⟨rfl, rfl, rfl, updateBreaker_silent trip breakers spec now⟩
      | raised => exact ⟨rfl, rfl, rfl, rfl⟩
      | cancelled => exact ⟨rfl, rfl, rfl, rfl⟩
  | reporting spec n err =>
      have settled : ∀ draw, (Call.settle gateway call spec n err now draw breakers).breakers =
            breakers ∧
          (Call.settle gateway call spec n err now draw breakers).state.point.holding = none ∧
          started (Call.settle gateway call spec n err now draw breakers).notes = [] := by
        intro draw
        unfold settle
        split
        · exact ⟨rfl, rfl, rfl⟩
        · split
          · exact ⟨rfl, rfl, rfl⟩
          · exact ⟨rfl, rfl, rfl⟩
      cases answer with
      | proceed outcome draw => exact settled draw
      | raised => exact settled 0
      | cancelled => exact ⟨rfl, rfl, rfl⟩
  | sleeping spec n until_ =>
      cases answer with
      | proceed outcome draw =>
          obtain ⟨holds, starts⟩ := attempt_begun gateway call spec (n + 1) now
          exact ⟨rfl, holds, by rw [holds]; exact starts, rfl⟩
      | raised => exact ⟨rfl, rfl, rfl⟩
      | cancelled => exact ⟨rfl, rfl, rfl⟩
  | delivering spec r =>
      cases answer <;> exact ⟨rfl, rfl, rfl⟩
  | ended ending =>
      exact ⟨rfl, by rw [here], rfl⟩

/-! ### Streams -/

theorem StreamNote.started_of (notes : List StreamNote) :
    started (notes.filterMap StreamNote.inner?) = notes.filterMap StreamNote.target? := by
  unfold started
  rw [List.filterMap_filterMap]
  congr 1
  funext note
  cases note <;> rfl

namespace Stream

variable (stream : Stream) (now : ℚ) (breakers : Breakers)

theorem attempt_begun (spec : ModelSpec) (n : Nat) :
    (stream.attempt gateway spec n now).1.point.holding = begun stream.deadline now spec ∧
      (stream.attempt gateway spec n now).2.filterMap StreamNote.target? =
        (begun stream.deadline now spec).toList := by
  rcases attempt_cases gateway stream spec n now with
    ⟨late, attempted⟩ | ⟨early, timeout, attempted⟩
  · rw [attempted, begun_of_late late]
    exact ⟨rfl, rfl⟩
  · rw [attempted, begun_in_time early]
    exact ⟨rfl, rfl⟩

/-- A segment is explained by a move. -/
def Moved (stream : Stream) (now : ℚ) (breakers : Breakers) (segment : Segment Stream StreamNote)
    (move : Move) : Prop :=
  move.Explains
    ((nextTarget gateway.chatProvider blocked now stream.targets breakers).found.map Prod.fst)
    stream.deadline now breakers stream.point.holding segment.state.point.holding segment.breakers
    (segment.notes.filterMap StreamNote.target?)

variable {stream now breakers}

theorem choose_moved (choosing : stream.point.holding = none) :
    stream.Moved gateway blocked now breakers (stream.choose gateway blocked now breakers) .turn := by
  unfold Moved choose
  rcases nextTarget_cases gateway.chatProvider blocked now stream.targets breakers with
    ⟨before, spec, rest, -, -, ready, found, -, left⟩ | ⟨-, found, -, left⟩
  · obtain ⟨holds, starts⟩ := attempt_begun gateway { stream with
      targets := rest
      attempts := stream.attempts ++
        (nextTarget gateway.chatProvider blocked now stream.targets breakers).skips.map
          fun s => skipRecord .chat s.1 s.2 } now spec 1
    dsimp only
    rw [found]
    refine ⟨choosing, holds, ?_, ready.2.2, left⟩
    rw [List.filterMap_append, skips_untargeted, List.nil_append, holds]
    exact starts
  · dsimp only
    rw [found]
    refine ⟨choosing, rfl, ?_, left⟩
    rw [List.filterMap_append, skips_untargeted]
    rfl

variable {gateway blocked}

theorem fail_moved {a : Attempt} (here : stream.point.holding = some a.spec) (ttft : Option ℚ)
    (err : ProviderError) (emitted : Bool) :
    stream.Moved gateway blocked now breakers
      (stream.fail a ttft now err emitted breakers) (.ofError a.spec err) := by
  unfold Moved Move.ofError
  cases trip : trips err with
  | true => exact ⟨here, rfl, rfl, updateBreaker_trips trip breakers a.spec now⟩
  | false => exact ⟨here, rfl, rfl, updateBreaker_silent trip breakers a.spec now⟩

theorem pass_moved {a : Attempt} (here : stream.point.holding = some a.spec) (ttft : ℚ)
    (item : StreamItem) :
    stream.Moved gateway blocked now breakers (stream.pass a ttft now item breakers)
      (.ofItem a.spec item) := by
  cases item with
  | delta text => exact ⟨rfl, here.symm, rfl⟩
  | finish reason => exact ⟨here, rfl, rfl, _, CircuitBreaker.recordSuccess_probe _, rfl⟩

theorem settle_moved (here : stream.point.holding = none) (a : Attempt) (err : ProviderError)
    (emitted : Bool) (draw : ℚ) :
    stream.Moved gateway blocked now breakers
      (stream.settle gateway a err emitted now draw breakers) .rest := by
  unfold Moved settle
  split
  · exact ⟨rfl, here.symm, rfl⟩
  · split
    · exact ⟨rfl, here.symm, rfl⟩
    · split
      · exact ⟨rfl, here.symm, rfl⟩
      · exact ⟨rfl, here.symm, rfl⟩

/-- **A step of a stream that goes on is its move.** -/
theorem proceed_moved (arrival : Arrival) (draw : ℚ) :
    stream.Moved gateway blocked now breakers
      (stream.proceed gateway blocked arrival draw now breakers)
      (stream.move gateway (.proceed arrival draw) now) := by
  unfold move proceed
  cases here : stream.point with
  | choosing => exact choose_moved gateway blocked (by rw [here]; rfl)
  | opening a timeout =>
      have held : stream.point.holding = some a.spec := by rw [here]; rfl
      cases arrival with
      | item item => exact ⟨rfl, held.symm, rfl⟩
      | exhausted => exact fail_moved held none (unmarked a.spec) false
      | error err => exact fail_moved held none err false
  | announced a ttft item => exact pass_moved (by rw [here]; rfl) ttft item
  | passing a ttft =>
      have held : stream.point.holding = some a.spec := by rw [here]; rfl
      dsimp only
      split
      · exact fail_moved held (some ttft) _ true
      · exact ⟨rfl, held.symm, rfl⟩
  | waiting a ttft since idle =>
      have held : stream.point.holding = some a.spec := by rw [here]; rfl
      cases arrival with
      | item item => exact pass_moved held ttft item
      | exhausted => exact fail_moved held (some ttft) (unmarked a.spec) true
      | error err => exact fail_moved held (some ttft) err true
  | completing a ttft reason => exact ⟨rfl, by rw [here]; rfl, rfl⟩
  | reporting a err emitted => exact settle_moved (by rw [here]; rfl) a err emitted draw
  | sleeping spec n until_ => exact ⟨rfl, by rw [here]; rfl, rfl⟩
  | closing again =>
      cases again with
      | none => exact ⟨rfl, by rw [here]; rfl, rfl⟩
      | some next =>
          obtain ⟨holds, starts⟩ := attempt_begun gateway stream now next.1 next.2
          exact ⟨by rw [here]; rfl, holds, by rw [holds]; exact starts, rfl⟩
  | finished => exact ⟨rfl, by rw [here]; rfl, rfl⟩
  | ended aborted => exact ⟨rfl, rfl, rfl⟩

/-- A stream that is aborted ends its attempt without telling the breaker. -/
theorem abort_moved :
    stream.Moved gateway blocked now breakers (stream.abort breakers)
      ((stream.point.holding.map Move.drop).getD .rest) := by
  unfold Moved
  cases held : stream.point.holding with
  | none => exact ⟨rfl, rfl, rfl⟩
  | some spec => exact ⟨rfl, rfl, rfl, rfl⟩

theorem resume_moved (answer : StreamAnswer) :
    stream.Moved gateway blocked now breakers
      (stream.resume gateway blocked answer now breakers) (stream.move gateway answer now) := by
  cases answer with
  | proceed arrival draw => exact proceed_moved arrival draw
  | raised =>
      have aborted : stream.Moved gateway blocked now breakers (stream.abort breakers)
        ((stream.point.holding.map Move.drop).getD .rest) := abort_moved
      have passed : stream.Moved gateway blocked now breakers
        (stream.proceed gateway blocked .exhausted 0 now breakers)
        (stream.move gateway (.proceed .exhausted 0) now) := proceed_moved .exhausted 0
      unfold resume move at *
      cases here : stream.point with
      | closing again => cases again <;> rw [here] at aborted <;> exact aborted
      | _ => rw [here] at aborted passed; first | exact passed | exact aborted
  | cancelled =>
      have aborted : stream.Moved gateway blocked now breakers (stream.abort breakers)
        ((stream.point.holding.map Move.drop).getD .rest) := abort_moved
      have passed : stream.Moved gateway blocked now breakers
        (stream.proceed gateway blocked .exhausted 0 now breakers)
        (stream.move gateway (.proceed .exhausted 0) now) := proceed_moved .exhausted 0
      unfold resume move at *
      cases here : stream.point with
      | closing again => cases again <;> rw [here] at aborted <;> exact aborted
      | _ => rw [here] at aborted passed; first | exact passed | exact aborted

end Stream

/-- **Every step of a task is its move.** -/
theorem Task.resume_moved (task : Task ρ) (reply : Reply ρ) (now : ℚ) (breakers : Breakers) :
    (task.move gateway reply now).Explains
      ((task.choice gateway now breakers).found.map Prod.fst) task.deadline now breakers
      task.holding (task.resume gateway reply now breakers).state.holding
      (task.resume gateway reply now breakers).breakers
      (started (task.resume gateway reply now breakers).notes) := by
  cases task with
  | run kind blocked call => exact call.resume_moved gateway kind blocked reply.answer now breakers
  | streaming blocked stream =>
      have moved : stream.Moved gateway blocked now breakers
        (stream.resume gateway blocked reply.streamAnswer now breakers)
        (stream.move gateway reply.streamAnswer now) := Stream.resume_moved reply.streamAnswer
      unfold Stream.Moved at moved
      rw [← StreamNote.started_of] at moved
      exact moved

end

/-! ## One process -/

inductive Request where
  | chat (route : Option String) (allowEgress : Bool)
  | embed (route : Option String)
  | streamChat (route : Option String) (allowEgress : Bool)

/-- The call a request begins, or `none` for `UnknownModelError`. -/
def LLMGateway.serve (gateway : LLMGateway) (now : ℚ) : Request → Option (Task ρ)
  | .chat route allowEgress =>
      (gateway.catalog.resolve route .chat).map fun r =>
        .run .chat (gateway.egressBlocked r.2 allowEgress)
          { targets := r.2, deadline := now + gateway.config.requestDeadlineS }
  | .embed route =>
      (gateway.catalog.resolve route .embedding).map fun r =>
        .run .embedding [] { targets := r.2, deadline := now + gateway.config.requestDeadlineS }
  | .streamChat route allowEgress =>
      (gateway.catalog.resolve route .chat).map fun r =>
        .streaming (gateway.egressBlocked r.2 allowEgress)
          { route := r.1, targets := r.2, deadline := now + gateway.config.streamDeadlineS,
            requested := now }

/-- An attempt as it starts: its breaker, and the call that was probing the model. -/
structure Start where
  spec : ModelSpec
  now : ℚ
  breaker : CircuitBreaker
  prober : Option Nat
deriving DecidableEq

structure Instance (ρ : Type) where
  now : ℚ := 0
  breakers : Breakers
  tasks : List (Task ρ) := []
  /-- the call let through to probe a model, until it tells the breaker -/
  probes : String → Option Nat := fun _ => none
  starts : List Start := []

inductive Event (ρ : Type) where
  | request (request : Request)
  | resume (i : Nat) (reply : Reply ρ)

/-- `BreakerRegistry` of a new process. -/
def Breakers.fresh (failureThreshold : Nat) (cooldownS : ℚ) : Breakers :=
  fun _ => { failureThreshold, cooldownS }

/-- Who probes the models after a step of call `i`. -/
def probing (i : Nat) (move : Move) (before after : Breakers) (probes : String → Option Nat) :
    String → Option Nat := fun m =>
  if (before m).probeInFlight = false ∧ (after m).probeInFlight = true then some i
  else match move with
    | .record spec => if spec.id = m ∧ probes m = some i then none else probes m
    | _ => probes m

namespace Instance

variable (gateway : LLMGateway)

/-- One event at its time.  The clock is monotone. -/
def step (s : Instance ρ) (e : ℚ × Event ρ) : Option (Instance ρ) :=
  if e.1 < s.now then none
  else match e.2 with
    | .request request => (gateway.serve e.1 request).map fun task =>
        { s with now := e.1, tasks := s.tasks ++ [task] }
    | .resume i reply => (s.tasks[i]?).map fun task =>
        let segment := task.resume gateway reply e.1 s.breakers
        { now := e.1
          breakers := segment.breakers
          tasks := s.tasks.set i segment.state
          probes := probing i (task.move gateway reply e.1) s.breakers segment.breakers s.probes
          starts := s.starts ++ (started segment.notes).map fun spec =>
            ⟨spec, e.1, s.breakers spec.id, s.probes spec.id⟩ }

/-- No step of a call that probes a model ends its attempt behind the breaker's back, nor
is let through as a probe with no time left. -/
def tells (s : Instance ρ) (e : ℚ × Event ρ) : Bool :=
  match e.2 with
  | .request _ => true
  | .resume i reply => (s.tasks[i]?).all fun task =>
      match task.move gateway reply e.1 with
      | .drop spec => !((s.breakers spec.id).probeInFlight && s.probes spec.id == some i)
      | .turn => (task.choice gateway e.1 s.breakers).found.all fun f =>
          e.1 < task.deadline || (s.breakers f.1.id).state e.1 != .halfOpen
      | _ => true

/-- A retry in time finds its breaker not open and no probe in flight; while one is, no
other attempt on the model is told to the breaker. -/
def asks (s : Instance ρ) (e : ℚ × Event ρ) : Bool :=
  match e.2 with
  | .request _ => true
  | .resume i reply => (s.tasks[i]?).all fun task =>
      match task.move gateway reply e.1 with
      | .again spec => task.deadline ≤ e.1 ||
          ((s.breakers spec.id).state e.1 != .open_ && !(s.breakers spec.id).probeInFlight)
      | .record spec => !(s.breakers spec.id).probeInFlight || s.probes spec.id == some i
      | _ => true

def fresh (failureThreshold : Nat) (cooldownS : ℚ) : Instance ρ :=
  { breakers := .fresh failureThreshold cooldownS }

variable {gateway} {s s' : Instance ρ} {e : ℚ × Event ρ}

/-- What an event does. -/
theorem step_cases (step : s.step gateway e = some s') :
    (∃ request task, e.2 = .request request ∧ gateway.serve e.1 request = some task ∧
      s' = { s with now := e.1, tasks := s.tasks ++ [task] }) ∨
    (∃ i reply task, e.2 = .resume i reply ∧ s.tasks[i]? = some task ∧
      s' = { now := e.1
             breakers := (task.resume gateway reply e.1 s.breakers).breakers
             tasks := s.tasks.set i (task.resume gateway reply e.1 s.breakers).state
             probes := probing i (task.move gateway reply e.1) s.breakers
               (task.resume gateway reply e.1 s.breakers).breakers s.probes
             starts := s.starts ++
               (started (task.resume gateway reply e.1 s.breakers).notes).map fun spec =>
                 ⟨spec, e.1, s.breakers spec.id, s.probes spec.id⟩ }) := by
  obtain ⟨now, event⟩ := e
  unfold Instance.step at step
  split at step
  · cases step
  · cases event with
    | request request =>
        obtain ⟨task, served, here⟩ := Option.map_eq_some_iff.mp step
        exact .inl ⟨request, task, rfl, served, here.symm⟩
    | resume i reply =>
        obtain ⟨task, found, here⟩ := Option.map_eq_some_iff.mp step
        exact .inr ⟨i, reply, task, rfl, found, here.symm⟩

end Instance

/-! ## Probes -/

/-- A breaker that let a probe through and has not heard of it. -/
def CircuitBreaker.Probed (b : CircuitBreaker) : Prop :=
  b.probeInFlight = true ∧ b.openedAt ≠ none

theorem CircuitBreaker.Probed.refuses {b : CircuitBreaker} (probed : b.Probed) (now : ℚ) :
    b.admits now = false := by
  obtain ⟨flag, opened⟩ := probed
  unfold CircuitBreaker.admits
  cases held : b.state now with
  | closed => exact absurd (state_eq_closed.mp held) opened
  | open_ => rfl
  | halfOpen => rw [flag]; rfl

namespace Move.Explains

variable {found before after : Option ModelSpec} {deadline now : ℚ} {breakers left : Breakers}
  {starts : List ModelSpec} {move : Move}

/-- Only a record frees a breaker from its probe. -/
theorem probed (moved : move.Explains found deadline now breakers before after left starts)
    {m : String} (held : (breakers m).Probed) :
    left m = breakers m ∨ ∃ spec, move = .record spec ∧ spec.id = m := by
  cases move with
  | rest => exact .inl (by rw [moved.1])
  | again spec => exact .inl (by rw [moved.2.2.2])
  | drop spec => exact .inl (by rw [moved.2.2.2])
  | record spec =>
      obtain ⟨-, -, -, b, -, rfl⟩ := moved
      by_cases same : spec.id = m
      · exact .inr ⟨spec, rfl, same⟩
      · exact .inl (Breakers.set_other (Ne.symm same))
  | turn =>
      left
      obtain ⟨-, -, -, walk⟩ := moved
      cases found with
      | none => rw [walk]
      | some spec =>
          obtain ⟨admits, rfl⟩ := walk
          apply Breakers.set_other
          rintro rfl
          rw [held.refuses] at admits
          cases admits

/-- Only turning to a half-open target sends a probe. -/
theorem flagged (moved : move.Explains found deadline now breakers before after left starts)
    {m : String} (idle : (breakers m).probeInFlight = false)
    (flag : (left m).probeInFlight = true) :
    ∃ spec, move = .turn ∧ found = some spec ∧ spec.id = m ∧
      (breakers m).state now = .halfOpen ∧ (left m).Probed ∧ after = begun deadline now spec := by
  have unchanged : ∀ {b}, left m = b → b.probeInFlight = false → False := by
    rintro b rfl none
    rw [none] at flag
    cases flag
  cases move with
  | rest => exact (unchanged (by rw [moved.1]) idle).elim
  | again spec => exact (unchanged (by rw [moved.2.2.2]) idle).elim
  | drop spec => exact (unchanged (by rw [moved.2.2.2]) idle).elim
  | record spec =>
      obtain ⟨-, -, -, b, none, rfl⟩ := moved
      by_cases same : spec.id = m
      · exact (unchanged (by rw [← same, Breakers.set_same]) none).elim
      · exact (unchanged (Breakers.set_other (Ne.symm same)) idle).elim
  | turn =>
      obtain ⟨-, holds, -, walk⟩ := moved
      cases found with
      | none => exact (unchanged (by rw [walk]) idle).elim
      | some spec =>
          obtain ⟨admits, rfl⟩ := walk
          by_cases same : spec.id = m
          · subst same
            rcases CircuitBreaker.admitted_cases admits with ⟨-, same⟩ | ⟨half, -, probe⟩
            · exact (unchanged (by rw [Breakers.set_same, same]) idle).elim
            · refine ⟨spec, rfl, rfl, rfl, half, ⟨flag, ?_⟩, holds⟩
              rw [Breakers.set_same, probe]
              intro closed
              have : (breakers spec.id).state now = .closed :=
                CircuitBreaker.state_eq_closed.mpr closed
              rw [half] at this
              cases this
          · exact (unchanged (Breakers.set_other (Ne.symm same)) idle).elim

end Move.Explains

/-! ## No probe is leaked -/

/-- An attempt that starts finds its breaker not open and the model not probed. -/
def Start.Fair (a : Start) : Prop := a.breaker.state a.now ≠ .open_ ∧ a.prober = none

namespace Instance

variable {gateway : LLMGateway} {s s' : Instance ρ} {e : ℚ × Event ρ}

/-- Every probe in flight belongs to an attempt under way. -/
def Attended (s : Instance ρ) : Prop :=
  ∀ m, (s.breakers m).probeInFlight = true → ∃ i task spec, s.probes m = some i ∧
    s.tasks[i]? = some task ∧ task.holding = some spec ∧ spec.id = m

/-- A model whose probe was in flight before a step and is after it is probed by the same call. -/
theorem probing_kept {i : Nat} {move : Move} {before after : Breakers}
    {probes : String → Option Nat} {m : String} (flag : (before m).probeInFlight = true)
    (other : ∀ spec, move = .record spec → spec.id ≠ m) :
    probing i move before after probes m = probes m := by
  unfold probing
  rw [if_neg fun h => by rw [flag] at h; cases h.1]
  cases move with
  | record spec => exact if_neg fun h => other spec rfl h.1
  | _ => rfl

theorem step_attended (attended : s.Attended) (tells : s.tells gateway e = true)
    (step : s.step gateway e = some s') : s'.Attended := by
  rcases step_cases step with ⟨request, task, -, -, rfl⟩ | ⟨i, reply, task, event, there, rfl⟩
  · intro m flag
    obtain ⟨i, prober, spec, probes, mem, holds, same⟩ := attended m flag
    exact ⟨i, prober, spec, probes, by
      rw [List.getElem?_append_left (List.getElem?_eq_some_iff.mp mem).1, mem], holds, same⟩
  have moved := Task.resume_moved gateway task reply e.1 s.breakers
  have told := tells
  unfold Instance.tells at told
  rw [event] at told
  dsimp only at told
  rw [there, Option.all_some] at told
  intro m flag
  have inside : i < s.tasks.length := (List.getElem?_eq_some_iff.mp there).1
  cases was : (s.breakers m).probeInFlight with
  | false =>
      -- the probe set out in this step
      obtain ⟨spec, turn, found, same, half, -, holds⟩ := moved.flagged was flag
      rw [turn] at told
      dsimp only at told
      obtain ⟨f, where_, is⟩ := Option.map_eq_some_iff.mp found
      rw [where_, Option.all_some, is, same, half] at told
      have early : e.1 < task.deadline := by simpa using told
      refine ⟨i, _, spec, ?_, List.getElem?_set_self inside, ?_, same⟩
      · show probing _ _ _ _ _ m = _
        unfold probing
        rw [if_pos ⟨was, flag⟩]
      · rw [holds, begun_in_time early]
  | true =>
      obtain ⟨j, prober, spec, probes, mem, holds, same⟩ := attended m was
      have other : ∀ t, task.move gateway reply e.1 = .record t → t.id ≠ m := by
        rintro t record rfl
        rw [record] at moved
        obtain ⟨-, -, -, b, none, left⟩ := moved
        have freed : (task.resume gateway reply e.1 s.breakers).breakers t.id = b := by
          rw [left, Breakers.set_same]
        have flag' := flag
        dsimp only at flag'
        rw [freed, none] at flag'
        cases flag'
      have kept : probing i (task.move gateway reply e.1) s.breakers
          (task.resume gateway reply e.1 s.breakers).breakers s.probes m = some j := by
        rw [probing_kept was other, probes]
      by_cases self : j = i
      · subst self
        obtain rfl : prober = task := by
          rw [mem] at there
          exact Option.some.inj there
        -- the prober itself went on: its attempt is still under way
        refine ⟨j, _, spec, kept, List.getElem?_set_self inside, ?_, same⟩
        cases move : prober.move gateway reply e.1 with
        | rest =>
            rw [move] at moved
            exact moved.2.1.trans holds
        | turn =>
            rw [move] at moved
            rw [moved.1] at holds
            cases holds
        | again t =>
            rw [move] at moved
            rw [moved.1] at holds
            cases holds
        | record t =>
            rw [move] at moved
            rw [moved.1] at holds
            exact absurd ((congrArg ModelSpec.id (Option.some.inj holds)).trans same) (other t move)
        | drop t =>
            rw [move] at moved told
            rw [moved.1] at holds
            dsimp only at told
            rw [Option.some.inj holds, same, was, probes] at told
            simp at told
      · exact ⟨j, prober, spec, kept, by
          rw [List.getElem?_set_ne (Ne.symm self), mem], holds, same⟩

theorem holding_not_over {task : Task ρ} {spec : ModelSpec} (holds : task.holding = some spec) :
    task.isOver = false := by
  cases task with
  | run kind blocked call =>
      unfold Task.holding at holds
      unfold Task.isOver
      dsimp only at holds ⊢
      cases here : call.point with
      | ended ending => rw [here] at holds; cases holds
      | _ => rfl
  | streaming blocked stream =>
      unfold Task.holding at holds
      unfold Task.isOver
      dsimp only at holds ⊢
      cases here : stream.point with
      | ended aborted => rw [here] at holds; cases holds
      | _ => rfl

/-- **While no attempt that probes a model ends behind its breaker's back, no probe is left in
flight when all calls are over**, and a model past its cooldown is admitted. -/
theorem probes_end {failureThreshold : Nat} {cooldownS : ℚ} {events : List (ℚ × Event ρ)}
    (run : Run (Guarded (fun s e => s.tells gateway e = true) (TryStepOf (Instance.step gateway)))
      (fresh failureThreshold cooldownS) events s)
    (idle : s.tasks.all Task.isOver = true) (m : String) :
    (s.breakers m).probeInFlight = false ∧
      ∀ spec blocked now, spec.id = m → m ∉ blocked → (s.breakers m).state now ≠ .open_ →
        (admitTarget spec true blocked now s.breakers).1 = none := by
  have attended : s.Attended := by
    refine run.invariant ?_ (fun m flag => Bool.noConfusion flag)
    rintro before event after ⟨tells, step⟩ attended
    exact step_attended attended tells step
  have free : (s.breakers m).probeInFlight = false := by
    cases flag : (s.breakers m).probeInFlight with
    | false => rfl
    | true =>
        obtain ⟨i, task, spec, -, mem, holds, -⟩ := attended m flag
        have finished := List.all_eq_true.mp idle task (List.mem_of_getElem? mem)
        rw [holding_not_over holds] at finished
        cases finished
  refine ⟨free, ?_⟩
  rintro spec blocked now rfl unblocked cooled
  have admits : (s.breakers spec.id).admits now = true := by
    unfold CircuitBreaker.admits
    cases state : (s.breakers spec.id).state now with
    | closed => rfl
    | open_ => exact absurd state cooled
    | halfOpen => rw [free]; rfl
  unfold admitTarget
  rw [if_neg unblocked, if_neg Bool.noConfusion]
  dsimp only
  rw [CircuitBreaker.allow_fst, admits]
  rfl

/-! ## An open breaker stops the instance -/

/-- Until a call that probes a model has told its breaker, the breaker refuses. -/
def Watched (s : Instance ρ) : Prop := ∀ m i, s.probes m = some i → (s.breakers m).Probed

theorem step_watched (watched : s.Watched) (asks : s.asks gateway e = true)
    (step : s.step gateway e = some s') : s'.Watched := by
  rcases step_cases step with ⟨request, task, -, -, rfl⟩ | ⟨i, reply, task, event, there, rfl⟩
  · exact watched
  have moved := Task.resume_moved gateway task reply e.1 s.breakers
  unfold Instance.asks at asks
  rw [event] at asks
  dsimp only at asks
  rw [there, Option.all_some] at asks
  intro m j probes
  dsimp only at probes ⊢
  cases was : (s.breakers m).probeInFlight with
  | false =>
      cases is : ((task.resume gateway reply e.1 s.breakers).breakers m).probeInFlight with
      | true =>
          obtain ⟨spec, -, -, -, -, probed, -⟩ := moved.flagged was is
          exact probed
      | false =>
          have before : s.probes m = some j := by
            unfold probing at probes
            rw [if_neg fun h => by rw [is] at h; cases h.2] at probes
            split at probes
            · split at probes
              · cases probes
              · exact probes
            · exact probes
          rw [(watched m j before).1] at was
          cases was
  | true =>
      have before : s.probes m = some j ∧
          ∀ spec, task.move gateway reply e.1 = .record spec → spec.id = m → j ≠ i := by
        unfold probing at probes
        rw [if_neg fun h => by rw [was] at h; cases h.1] at probes
        split at probes
        · rename_i spec record
          split at probes
          · cases probes
          · rename_i other
            refine ⟨probes, ?_⟩
            rintro t same rfl rfl
            rw [record] at same
            cases same
            exact other ⟨rfl, probes⟩
        · rename_i other
          exact ⟨probes, fun spec record => absurd record (other spec)⟩
      rcases moved.probed (watched m j before.1) with same | ⟨spec, record, same⟩
      · rw [same]
        exact watched m j before.1
      · -- a record about a probed model is the prober's own
        rw [record] at asks
        dsimp only at asks
        rw [same, was, before.1] at asks
        exact absurd (by simpa using asks) (before.2 spec record same)

theorem unprobed (watched : s.Watched) {m : String} {now : ℚ}
    (admits : (s.breakers m).admits now = true) : s.probes m = none := by
  cases probes : s.probes m with
  | none => rfl
  | some i =>
      rw [(watched m i probes).refuses] at admits
      cases admits

theorem step_fair (watched : s.Watched) (asks : s.asks gateway e = true)
    (step : s.step gateway e = some s') (fair : ∀ a ∈ s.starts, a.Fair) :
    ∀ a ∈ s'.starts, a.Fair := by
  rcases step_cases step with ⟨request, task, -, -, rfl⟩ | ⟨i, reply, task, event, there, rfl⟩
  · exact fair
  have moved := Task.resume_moved gateway task reply e.1 s.breakers
  unfold Instance.asks at asks
  rw [event] at asks
  dsimp only at asks
  rw [there, Option.all_some] at asks
  intro a mem
  rcases List.mem_append.mp mem with old | new
  · exact fair a old
  obtain ⟨spec, starts, rfl⟩ := List.mem_map.mp new
  generalize started (task.resume gateway reply e.1 s.breakers).notes = begins at moved starts
  have quiet : begins = [] → False := by
    rintro rfl
    cases starts
  cases move : task.move gateway reply e.1 with
  | rest =>
      rw [move] at moved
      exact (quiet moved.2.2).elim
  | record t =>
      rw [move] at moved
      exact (quiet moved.2.2.1).elim
  | drop t =>
      rw [move] at moved
      exact (quiet moved.2.2.1).elim
  | turn =>
      -- the target was admitted in this step
      rw [move] at moved
      obtain ⟨-, holds, begins, walk⟩ := moved
      cases found : (task.choice gateway e.1 s.breakers).found.map Prod.fst with
      | none =>
          rw [found] at holds
          rw [begins, holds] at starts
          cases starts
      | some t =>
          rw [found] at holds walk
          have same : spec = t := by
            rw [begins, holds] at starts
            unfold begun at starts
            dsimp only [Option.bind] at starts
            split at starts
            · cases starts
            · exact List.mem_singleton.mp starts
          rw [same]
          refine ⟨?_, unprobed watched walk.1⟩
          intro held
          have admits := walk.1
          unfold CircuitBreaker.admits at admits
          rw [held] at admits
          cases admits
  | again t =>
      rw [move] at moved asks
      obtain ⟨-, holds, begins, -⟩ := moved
      have early : e.1 < task.deadline ∧ spec = t := by
        rw [begins, holds] at starts
        unfold begun at starts
        split at starts
        · cases starts
        · rename_i early
          exact ⟨not_le.mp early, List.mem_singleton.mp starts⟩
      obtain ⟨early, rfl⟩ := early
      dsimp only at asks
      have asked : (s.breakers spec.id).state e.1 ≠ .open_ ∧
          (s.breakers spec.id).probeInFlight = false := by
        simpa [not_le.mpr early] using asks
      refine ⟨asked.1, ?_⟩
      cases probes : s.probes spec.id with
      | none => rfl
      | some j =>
          rw [(watched _ _ probes).1] at asked
          cases asked.2

/-- Probed breakers refuse, and no attempt started that they would have stopped. -/
def Obeyed (s : Instance ρ) : Prop := s.Watched ∧ ∀ a ∈ s.starts, a.Fair

/-- **While retries find their breaker as a new call would have to, and no other attempt is told
to a breaker that waits for its probe, no attempt starts on an open breaker or on a model
that is being probed.** -/
theorem open_breaker_stops {failureThreshold : Nat} {cooldownS : ℚ} {events : List (ℚ × Event ρ)}
    (run : Run (Guarded (fun s e => s.asks gateway e = true) (TryStepOf (Instance.step gateway)))
      (fresh failureThreshold cooldownS) events s) :
    ∀ a ∈ s.starts, a.breaker.state a.now ≠ .open_ ∧ a.prober = none := by
  have quiet : (fresh failureThreshold cooldownS : Instance ρ).Obeyed :=
    ⟨fun _ _ none => (nomatch none), fun _ mem => absurd mem List.not_mem_nil⟩
  have kept : s.Obeyed := by
    refine run.invariant ?_ quiet
    rintro before event after ⟨asks, step⟩ ⟨watched, fair⟩
    exact ⟨step_watched watched asks step, step_fair watched asks step fair⟩
  exact kept.2

end Instance

end

/-! ## Poles -/

/-- The call may go on. -/
def poleGo : Reply Unit := .proceed (.result ()) .exhausted (1 / 2)

def poleFails (kind : ProviderErrorKind) : Reply Unit :=
  .proceed (.error { kind, text := "[local] failed" }) .exhausted (1 / 2)

def poleRequest : Event Unit := .request (.chat (some "local/small") true)

/-- Call `i` is made and its only attempt ends by an error that is not retried. -/
def poleFailing (i : Nat) (now : ℚ) (kind : ProviderErrorKind) : List (ℚ × Event Unit) :=
  [(now, poleRequest), (now, .resume i poleGo), (now, .resume i (poleFails kind)),
    (now, .resume i poleGo), (now, .resume i poleGo)]

/-- Three calls open the breaker; the fourth probes the model and finds it unknown there. -/
def poleLeak : List (ℚ × Event Unit) :=
  poleFailing 0 0 .auth ++ poleFailing 1 0 .auth ++ poleFailing 2 0 .auth ++
    poleFailing 3 40 .modelNotFound

/-- A property of the instance after a run of events. -/
theorem exists_after {step : Instance Unit → ℚ × Event Unit → Option (Instance Unit)}
    {events : List (ℚ × Event Unit)} {P : Instance Unit → Bool}
    (check : (events.foldlM step (Instance.fresh 3 30)).any P = true) :
    ∃ s, events.foldlM step (Instance.fresh 3 30) = some s ∧ P s = true :=
  (Option.any_eq_true _ _).mp check

/-- Pole: all calls are over and a probe is in flight. -/
theorem probe_leaks : ∃ s : Instance Unit,
    Run (TryStepOf (Instance.step poleGateway)) (Instance.fresh 3 30) poleLeak s ∧
      s.tasks.all Task.isOver = true ∧ (s.breakers "local/small").probeInFlight = true := by
  have last : (poleLeak.foldlM (Instance.step poleGateway) (Instance.fresh 3 30)).any
      (fun s => s.tasks.all Task.isOver && (s.breakers "local/small").probeInFlight) = true := by
    decide +kernel
  obtain ⟨s, fold, ends⟩ := exists_after last
  obtain ⟨finished, flag⟩ := Bool.and_eq_true_iff.mp ends
  exact ⟨s, Run.of_foldlM fold, finished, flag⟩

/-- The fourth call's probe succeeds. -/
def poleProbe : List (ℚ × Event Unit) :=
  poleFailing 0 0 .auth ++ poleFailing 1 0 .auth ++ poleFailing 2 0 .auth ++
    [(40, poleRequest), (40, .resume 3 poleGo), (41, .resume 3 poleGo), (41, .resume 3 poleGo)]

theorem probes_end_pole : ∃ s : Instance Unit, s.tasks.length = 4 ∧
    (s.breakers "local/small").probeInFlight = false ∧
      ∀ spec blocked now, spec.id = "local/small" → "local/small" ∉ blocked →
        (s.breakers "local/small").state now ≠ .open_ →
        (admitTarget spec true blocked now s.breakers).1 = none := by
  have last : (poleProbe.foldlM
      (checked (Instance.tells poleGateway) (Instance.step poleGateway)) (Instance.fresh 3 30)).any
      (fun s => s.tasks.all Task.isOver && s.tasks.length == 4) = true := by
    decide +kernel
  obtain ⟨s, fold, ends⟩ := exists_after last
  obtain ⟨finished, four⟩ := Bool.and_eq_true_iff.mp ends
  exact ⟨s, beq_iff_eq.mp four,
    Instance.probes_end (Run.guarded_of_foldlM fold) finished "local/small"⟩

/-- Three calls start; the first fails and sleeps, the others fail and open the breaker, and the
first wakes. -/
def poleHammer : List (ℚ × Event Unit) :=
  [(0, poleRequest), (0, poleRequest), (0, poleRequest), (0, .resume 0 poleGo),
    (0, .resume 1 poleGo), (0, .resume 2 poleGo), (0, .resume 0 (poleFails .unavailable)),
    (0, .resume 0 poleGo), (0, .resume 1 (poleFails .unavailable)),
    (0, .resume 2 (poleFails .unavailable)), (1, .resume 0 poleGo)]

/-- A call that started before the breaker opened succeeds while another probes the model; a
new call goes through. -/
def poleLate : List (ℚ × Event Unit) :=
  [(0, poleRequest), (0, .resume 0 poleGo)] ++
    poleFailing 1 0 .auth ++ poleFailing 2 0 .auth ++ poleFailing 3 0 .auth ++
    [(30, poleRequest), (30, .resume 4 poleGo), (30, .resume 0 poleGo), (30, poleRequest),
      (30, .resume 5 poleGo)]

/-- Pole: an attempt starts on an open breaker, and in another run one starts while the model is
being probed. -/
theorem open_breaker_passed :
    (∃ s : Instance Unit,
      Run (TryStepOf (Instance.step poleGateway)) (Instance.fresh 3 30) poleHammer s ∧
        ∃ a ∈ s.starts, a.breaker.state a.now = .open_) ∧
      ∃ s : Instance Unit,
        Run (TryStepOf (Instance.step poleGateway)) (Instance.fresh 3 30) poleLate s ∧
          ∃ a ∈ s.starts, a.prober = some 4 := by
  constructor
  · have last : (poleHammer.foldlM (Instance.step poleGateway) (Instance.fresh 3 30)).any
        (fun s => s.starts.any fun a => a.breaker.state a.now == .open_) = true := by
      decide +kernel
    obtain ⟨s, fold, ends⟩ := exists_after last
    obtain ⟨a, mem, opened⟩ := List.any_eq_true.mp ends
    exact ⟨s, Run.of_foldlM fold, a, mem, beq_iff_eq.mp opened⟩
  · have last : (poleLate.foldlM (Instance.step poleGateway) (Instance.fresh 3 30)).any
        (fun s => s.starts.any fun a => a.prober == some 4) = true := by
      decide +kernel
    obtain ⟨s, fold, ends⟩ := exists_after last
    obtain ⟨a, mem, probed⟩ := List.any_eq_true.mp ends
    exact ⟨s, Run.of_foldlM fold, a, mem, beq_iff_eq.mp probed⟩

theorem open_breaker_stops_pole : ∃ s : Instance Unit, s.starts.length = 4 ∧
    ∀ a ∈ s.starts, a.breaker.state a.now ≠ .open_ ∧ a.prober = none := by
  have last : (poleProbe.foldlM
      (checked (Instance.asks poleGateway) (Instance.step poleGateway)) (Instance.fresh 3 30)).any (fun s => s.starts.length == 4) = true := by
    decide +kernel
  obtain ⟨s, fold, four⟩ := exists_after last
  exact ⟨s, beq_iff_eq.mp four, Instance.open_breaker_stops (Run.guarded_of_foldlM fold)⟩

end OpsAssist.Gateway
