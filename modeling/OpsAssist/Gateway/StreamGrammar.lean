/-
# OpsAssist.Gateway.StreamGrammar -- a stream never splices two answers

The events of a stream in each state it can be in: none before the first item arrives;
from then on the start of one attempt and the deltas received from it.

`stream_never_splices`: a stream consumed to its end failed before it started, or handed
on one attempt and ended with how that ended.
-/
import OpsAssist.Gateway.Streams

namespace OpsAssist.Gateway

set_option autoImplicit false

namespace StreamNote

def event? : StreamNote → Option StreamEvent
  | .event e => some e
  | _ => none

/-- What was received, and from which attempt. -/
def received? : StreamNote → Option ((ModelSpec × Nat) × StreamItem)
  | .received spec n item => some ((spec, n), item)
  | _ => none

/-- The attempt that starts. -/
def invoked? : StreamNote → Option (ModelSpec × Nat)
  | .note (.started spec n _ _) => some (spec, n)
  | _ => none

end StreamNote

open StreamNote

/-- The events a stream yields. -/
def events (trace : List StreamNote) : List StreamEvent := trace.filterMap event?

def received (trace : List StreamNote) : List ((ModelSpec × Nat) × StreamItem) :=
  trace.filterMap received?

def invocations (trace : List StreamNote) : List (ModelSpec × Nat) := trace.filterMap invoked?

/-! ## The grammar -/

/-- The stream has handed on the start of one attempt and these deltas, and received these
items, all from that attempt; nothing is invoked after the start. -/
structure Streaming (trace : List StreamNote) (spec : ModelSpec) (n : Nat) (deltas : List String)
    (items : List StreamItem) : Prop where
  handed : ∃ route fallback,
    events trace = .started spec route fallback :: deltas.map .delta
  received : received trace = items.map fun item => ((spec, n), item)
  alone : ∃ front route fallback back, trace = front ++ .event (.started spec route fallback) :: back ∧
    (invocations front).getLast? = some (spec, n) ∧ invocations back = []

/-- Nothing was handed on and nothing received. -/
def Silent (trace : List StreamNote) : Prop := events trace = [] ∧ received trace = []

/-- The stream was over before anything was received. -/
def FailedUnstarted (trace : List StreamNote) : Prop :=
  (∃ code message attempts, events trace = [.failed code message false attempts]) ∧
    received trace = []

/-- One attempt was handed on: its deltas in order, and how it ended, which is completed
exactly when it delivered its end. -/
def HandedOn (trace : List StreamNote) : Prop :=
  ∃ before last spec n deltas items, trace = before ++ [StreamNote.event last] ∧
    Streaming before spec n deltas items ∧
    ((∃ reason latency ttft attempts, last = .completed spec reason latency ttft attempts ∧
        items = deltas.map .delta ++ [.finish reason]) ∨
      (∃ attempts message, last = .failed .providerErrorMidStream message true attempts ∧
        items = deltas.map .delta))

/-- What was handed on where the stream stands. -/
def Stream.Stands (trace : List StreamNote) : StreamPoint → Prop
  | .choosing | .sleeping _ _ _ | .closing _ | .reporting _ _ false => Silent trace
  | .opening a _ => Silent trace ∧ (invocations trace).getLast? = some (a.spec, a.n)
  | .announced a _ item => Streaming trace a.spec a.n [] [item]
  | .passing a _ | .waiting a _ _ _ | .reporting a _ true =>
      ∃ deltas, Streaming trace a.spec a.n deltas (deltas.map .delta)
  | .completing a _ reason =>
      ∃ deltas, Streaming trace a.spec a.n deltas (deltas.map .delta ++ [.finish reason])
  | .finished | .ended false => FailedUnstarted trace ∨ HandedOn trace
  | .ended true => False

/-! ## Its steps -/

theorem Streaming.append {trace : List StreamNote} {spec : ModelSpec} {n : Nat}
    {deltas : List String} {items : List StreamItem}
    (streaming : Streaming trace spec n deltas items) (notes : List StreamNote)
    (more : List String) (news : List StreamItem)
    (events_eq : events notes = more.map .delta)
    (received_eq : OpsAssist.Gateway.received notes = news.map fun item => ((spec, n), item))
    (quiet : invocations notes = []) :
    Streaming (trace ++ notes) spec n (deltas ++ more) (items ++ news) := by
  obtain ⟨⟨route, fallback, handed⟩, got, front, route', fallback', back, shape, named, alone⟩ :=
    streaming
  refine ⟨⟨route, fallback, ?_⟩, ?_, front, route', fallback', back ++ notes, ?_, named, ?_⟩
  · rw [events, List.filterMap_append]
    show events trace ++ events notes = _
    rw [handed, events_eq, List.map_append, List.cons_append]
  · rw [OpsAssist.Gateway.received, List.filterMap_append]
    show OpsAssist.Gateway.received trace ++ OpsAssist.Gateway.received notes = _
    rw [got, received_eq, List.map_append]
  · rw [shape, List.append_assoc, List.cons_append]
  · rw [invocations, List.filterMap_append]
    show invocations back ++ invocations notes = []
    rw [alone, quiet, List.append_nil]

/-- Notes that hand nothing on and receive nothing. -/
theorem Streaming.quiet {trace : List StreamNote} {spec : ModelSpec} {n : Nat}
    {deltas : List String} {items : List StreamItem}
    (streaming : Streaming trace spec n deltas items) (notes : List StreamNote)
    (events_eq : events notes = []) (received_eq : OpsAssist.Gateway.received notes = [])
    (quiet : invocations notes = []) : Streaming (trace ++ notes) spec n deltas items := by
  have after := streaming.append notes [] [] events_eq received_eq quiet
  rwa [List.append_nil, List.append_nil] at after

theorem Silent.append {trace notes : List StreamNote} (silent : Silent trace)
    (events_eq : events notes = []) (received_eq : received notes = []) :
    Silent (trace ++ notes) := by
  constructor
  · rw [events, List.filterMap_append]
    show events trace ++ events notes = []
    rw [silent.1, events_eq, List.append_nil]
  · rw [received, List.filterMap_append]
    show received trace ++ received notes = []
    rw [silent.2, received_eq, List.append_nil]

/-- A silent stream that fails. -/
theorem Silent.failed {trace notes : List StreamNote} (silent : Silent trace)
    {code : GatewayErrorCode} {message : String} {attempts : List AttemptRecord}
    (events_eq : events notes = [.failed code message false attempts])
    (received_eq : received notes = []) : FailedUnstarted (trace ++ notes) := by
  refine ⟨⟨code, message, attempts, ?_⟩, ?_⟩
  · rw [events, List.filterMap_append]
    show events trace ++ events notes = _
    rw [silent.1, events_eq, List.nil_append]
  · rw [received, List.filterMap_append]
    show received trace ++ received notes = []
    rw [silent.2, received_eq, List.append_nil]

variable {gateway : LLMGateway} {blocked : List String}

/-- The head of the attempt loop of a silent stream. -/
theorem attempt_stands {trace : List StreamNote} (silent : Silent trace) (stream : Stream)
    (spec : ModelSpec) (n : Nat) (now : ℚ) :
    Stream.Stands (trace ++ (stream.attempt gateway spec n now).2)
      (stream.attempt gateway spec n now).1.point := by
  rcases Stream.attempt_cases gateway stream spec n now with
    ⟨-, attempted⟩ | ⟨-, timeout, attempted⟩
  · rw [attempted]
    exact .inl (silent.failed rfl rfl)
  · rw [attempted]
    refine ⟨silent.append rfl rfl, ?_⟩
    rw [invocations, List.filterMap_append]
    exact List.getLast?_concat

/-- The targets passed over hand nothing on. -/
theorem skips_silent (skips : List (ModelSpec × String)) :
    events (skips.map fun s => StreamNote.note (.skipped s.1 s.2)) = [] ∧
      received (skips.map fun s => StreamNote.note (.skipped s.1 s.2)) = [] := by
  induction skips with
  | nil => exact ⟨rfl, rfl⟩
  | cons s skips ih => exact ih

theorem choose_stands {trace : List StreamNote} (silent : Silent trace) (stream : Stream)
    (now : ℚ) (breakers : Breakers) :
    Stream.Stands (trace ++ (stream.choose gateway blocked now breakers).notes)
      (stream.choose gateway blocked now breakers).state.point := by
  rcases Stream.choose_cases gateway blocked stream now breakers with
    ⟨skips, spec, rest, -, -, chosen⟩ | ⟨skips, -, chosen⟩
  · rw [chosen, ← List.append_assoc]
    exact attempt_stands (silent.append (skips_silent skips).1 (skips_silent skips).2) _ spec 1 now
  · rw [chosen, ← List.append_assoc]
    exact .inl ((silent.append (skips_silent skips).1 (skips_silent skips).2).failed rfl rfl)

/-- A failure after the start hands nothing more on. -/
theorem fail_streaming {trace : List StreamNote} {a : Attempt}
    (streaming : ∃ deltas, Streaming trace a.spec a.n deltas (deltas.map .delta))
    (stream : Stream) (ttft : Option ℚ) (now : ℚ) (err : ProviderError) (breakers : Breakers) :
    Stream.Stands (trace ++ (stream.fail a ttft now err true breakers).notes)
      (stream.fail a ttft now err true breakers).state.point := by
  obtain ⟨deltas, streaming⟩ := streaming
  exact ⟨deltas, streaming.quiet _ rfl rfl rfl⟩

/-- Handing on an item that was received last. -/
theorem pass_stands {trace : List StreamNote} {a : Attempt} {deltas : List String}
    {item : StreamItem}
    (streaming : Streaming trace a.spec a.n deltas (deltas.map .delta ++ [item]))
    (stream : Stream) (ttft now : ℚ) (breakers : Breakers) :
    Stream.Stands (trace ++ (stream.pass a ttft now item breakers).notes)
      (stream.pass a ttft now item breakers).state.point := by
  cases item with
  | delta text =>
      refine ⟨deltas ++ [text], ?_⟩
      have after := streaming.append [.event (.delta text)] [text] [] rfl rfl rfl
      rw [List.append_nil] at after
      rw [List.map_append]
      exact after
  | finish reason => exact ⟨deltas, streaming.quiet _ rfl rfl rfl⟩

/-! ## The run -/

/-- **A step keeps the grammar.** -/
theorem stream_step_stands {s : StreamSolo} (stands : Stream.Stands s.trace s.stream.point)
    (e : StreamEntry) :
    Stream.Stands (s.step gateway blocked e).trace (s.step gateway blocked e).stream.point := by
  show Stream.Stands (s.trace ++ (s.stream.proceed gateway blocked (s.deliver e).1 e.draw
    (s.deliver e).2 s.breakers).notes) (s.stream.proceed gateway blocked (s.deliver e).1 e.draw
    (s.deliver e).2 s.breakers).state.point
  generalize (s.deliver e).1 = arrival
  generalize (s.deliver e).2 = now
  unfold Stream.proceed
  cases here : s.stream.point with
  | choosing =>
      rw [here] at stands
      exact choose_stands stands s.stream now s.breakers
  | opening a timeout =>
      rw [here] at stands
      obtain ⟨silent, named⟩ := stands
      cases arrival with
      | item item =>
          refine ⟨⟨s.stream.route, !s.stream.attempts.isEmpty, ?_⟩, ?_,
            s.trace ++ [.received a.spec a.n item], s.stream.route, !s.stream.attempts.isEmpty, [],
            ?_, ?_, rfl⟩
          · rw [events, List.filterMap_append]
            show events s.trace ++ _ = _
            rw [silent.1]
            rfl
          · rw [received, List.filterMap_append]
            show received s.trace ++ _ = _
            rw [silent.2]
            rfl
          · rw [List.append_assoc]
            rfl
          · rw [invocations, List.filterMap_append]
            show (invocations s.trace ++ []).getLast? = _
            rw [List.append_nil]
            exact named
      | exhausted => exact silent.append rfl rfl
      | error err => exact silent.append rfl rfl
  | announced a ttft item =>
      rw [here] at stands
      exact pass_stands stands s.stream ttft now s.breakers
  | passing a ttft =>
      rw [here] at stands
      dsimp only
      split
      · exact fail_streaming stands s.stream (some ttft) now _ s.breakers
      · obtain ⟨deltas, streaming⟩ := stands
        exact ⟨deltas, streaming.quiet _ rfl rfl rfl⟩
  | waiting a ttft since idle =>
      rw [here] at stands
      cases arrival with
      | item item =>
          obtain ⟨deltas, streaming⟩ := stands
          have got := streaming.append [.received a.spec a.n item] [] [item] rfl rfl rfl
          rw [List.append_nil] at got
          have passed := pass_stands got s.stream ttft now s.breakers
          rwa [List.append_assoc] at passed
      | exhausted => exact fail_streaming stands s.stream (some ttft) now _ s.breakers
      | error err => exact fail_streaming stands s.stream (some ttft) now err s.breakers
  | completing a ttft reason =>
      rw [here] at stands
      obtain ⟨deltas, streaming⟩ := stands
      exact .inr ⟨_, _, a.spec, a.n, deltas, _, rfl, streaming, .inl ⟨reason, _, _, _, rfl, rfl⟩⟩
  | reporting a err emitted =>
      rw [here] at stands
      dsimp only
      unfold Stream.settle
      cases emitted with
      | true =>
          rw [if_pos rfl]
          obtain ⟨deltas, streaming⟩ := stands
          exact .inr ⟨_, _, a.spec, a.n, deltas, _, rfl, streaming, .inr ⟨_, _, rfl, rfl⟩⟩
      | false =>
          rw [if_neg Bool.false_ne_true]
          by_cases bad : err.kind = .badRequest
          · rw [if_pos bad]
            exact .inl (Silent.failed stands rfl rfl)
          · rw [if_neg bad]
            cases shouldRetry gateway err a.spec a.n (s.breakers a.spec.id) s.stream.deadline now
                e.draw with
            | none => exact Silent.append stands rfl rfl
            | some delay => exact Silent.append stands rfl rfl
  | sleeping spec n until_ =>
      rw [here] at stands
      exact Silent.append stands rfl rfl
  | closing again =>
      rw [here] at stands
      cases again with
      | none => exact Silent.append stands rfl rfl
      | some next => exact attempt_stands stands s.stream next.1 next.2 now
  | finished =>
      rw [here] at stands
      show FailedUnstarted (s.trace ++ []) ∨ HandedOn (s.trace ++ [])
      rw [List.append_nil]
      exact stands
  | ended aborted =>
      rw [here] at stands
      show Stream.Stands (s.trace ++ []) s.stream.point
      rw [List.append_nil, here]
      exact stands

theorem stream_after_stands {s : StreamSolo} (stands : Stream.Stands s.trace s.stream.point)
    (script : Nat → StreamEntry) : ∀ k, Stream.Stands (s.after gateway blocked script k).trace
      (s.after gateway blocked script k).stream.point
  | 0 => stands
  | k + 1 => stream_step_stands (stream_after_stands stands script k) (script k)

/-- **A stream consumed to its end failed before it started, or handed on one attempt.** -/
theorem stream_never_splices {gateway : LLMGateway} {blocked : List String} {route : String}
    {targets : List ModelSpec} {deadlineS now : ℚ} {breakers : Breakers}
    {script : Nat → StreamEntry} {k : Nat} {aborted : Bool} {s : StreamSolo}
    (ran : (StreamSolo.start route targets deadlineS now breakers).after gateway blocked script k = s)
    (consumed : s.stream.point = .ended aborted) :
    FailedUnstarted s.trace ∨ HandedOn s.trace := by
  have silent : Stream.Stands
      (StreamSolo.start route targets deadlineS now breakers).trace
      (StreamSolo.start route targets deadlineS now breakers).stream.point :=
    show Silent [] from ⟨rfl, rfl⟩
  have stands : Stream.Stands s.trace s.stream.point := by
    rw [← ran]
    exact stream_after_stands silent script k
  rw [consumed] at stands
  cases aborted with
  | false => exact stands
  | true => exact stands.elim

/-! ## Poles -/

/-- A first token, then the end. -/
def poleScript : Nat → StreamEntry
  | 1 => { arrival := .item (.delta "Hello"), duration := 1 }
  | 4 => { arrival := .item (.finish (some "stop")), duration := 1 }
  | _ => { arrival := .exhausted }

def poleStream : StreamSolo :=
  (StreamSolo.start "both" [poleCloudModel, poleLocal] 300 0 poleBreakers).after poleGateway []
    poleScript 7

theorem stream_never_splices_pole :
    (events poleStream.trace).length = 3 ∧
      (FailedUnstarted poleStream.trace ∨ HandedOn poleStream.trace) := by
  have consumed : poleStream.stream.point = .ended false := by decide +kernel
  exact ⟨by decide +kernel, stream_never_splices rfl consumed⟩

end OpsAssist.Gateway
