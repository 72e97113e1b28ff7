/-
# OpsAssist.Gateway.Ledger -- what a call reports and what it hands to the recorder

Both loops append their attempts to a list they report and hand records to the usage recorder,
each at its own places.  `Billing` and `StreamBilling` run a call and a stream, among any others,
with the attempts reported and the records handed over, priced.

`ledger_is_trail_iff`: the records are the attempts if and only if the call skips no target.
`one_record_each_iff`: every streamed attempt has exactly one record, and the right one, if and
only if its consumer does not stop once the provider's stream is over, and nothing but provider
errors comes out of it.  Poles: `skip_unrecorded`, `recorded_twice`.
-/
import Mathlib.Data.List.Forall2
import OpsAssist.Gateway.Calls
import OpsAssist.Gateway.StreamGrammar
import OpsAssist.Memory
import OpsAssist.Theory.Run

namespace OpsAssist.Gateway

set_option autoImplicit false

open Theory

/-! ## Prices -/

structure Usage where
  promptTokens : Nat := 0
  completionTokens : Nat := 0
  estimated : Bool := false
deriving DecidableEq

/-- The prices of a model, for a million tokens. -/
structure Prices where
  inputUsd : ℚ := 0
  outputUsd : ℚ := 0

/-- `estimate_cost_usd` -/
def Prices.cost (prices : Prices) (usage : Usage) : ℚ :=
  (prices.inputUsd * usage.promptTokens + prices.outputUsd * usage.completionTokens) / 1000000

/-- An attempt record with its usage and its cost. -/
structure Billed where
  record : AttemptRecord
  usage : Option Usage := none
  costUsd : ℚ := 0

/-- `_attempt` on a record without usage. -/
def bill (prices : Prices) (record : AttemptRecord) (usage : Option Usage) : Billed where
  record
  usage
  costUsd := (usage.map prices.cost).getD 0

/-- `_attempt` for an attempt that was cancelled. -/
def cancelledRecord (kind : ModelKind) (spec : ModelSpec) (n : Nat) (started now : ℚ)
    (ttft : Option ℚ) : AttemptRecord :=
  { kind, modelId := spec.id, provider := spec.provider, attempt := n, outcome := .cancelled,
    latency := now - started, ttft }

/-- The record of a target passed over. -/
def billedSkip (kind : ModelKind) (skip : ModelSpec × String) : Billed :=
  { record := skipRecord kind skip.1 skip.2 }

def Billed.skipped (b : Billed) : Bool := b.record.outcome == .skipped

@[simp] theorem billedSkip_skipped (kind : ModelKind) (skip : ModelSpec × String) :
    (billedSkip kind skip).skipped = true := rfl

@[simp] theorem bill_failed_skipped (prices : Prices) (kind : ModelKind) (spec : ModelSpec) (n : Nat)
    (started now : ℚ) (ttft : Option ℚ) (err : ProviderError) (usage : Option Usage) :
    (bill prices (failedRecord kind spec n started now ttft err) usage).skipped = false := by
  unfold Billed.skipped bill failedRecord
  dsimp only
  split <;> rfl

@[simp] theorem bill_success_skipped (prices : Prices) (kind : ModelKind) (spec : ModelSpec)
    (n : Nat) (started now : ℚ) (ttft : Option ℚ) (usage : Option Usage) :
    (bill prices (successRecord kind spec n started now ttft) usage).skipped = false := rfl

/-- **No target was passed over if and only if each was admitted**, where the trail grows by what a
step adds. -/
theorem unskipped_iff {σ ι : Type} {step : σ → ι → σ} (trail : σ → List Billed)
    {adds : σ → ι → List Billed} {Admitted : σ → ι → Prop}
    (grows : ∀ s v, trail (step s v) = adds s v ++ trail s)
    (admitted : ∀ s v, Admitted s v ↔ ∀ b ∈ adds s v, b.skipped = false)
    {s s' : σ} {labels : List ι} (run : Run (StepOf step) s labels s')
    (new : ∀ b ∈ trail s, b.skipped = false) :
    (∀ b ∈ trail s', b.skipped = false) ↔ Run (Guarded Admitted (StepOf step)) s labels s' := by
  let Clean : σ → Prop := fun s => ∀ b ∈ trail s, b.skipped = false
  have apart : ∀ s, Clean s → ¬¬Clean s := fun _ clean bad => bad clean
  have whole : ¬¬Clean s' ↔ Run (Guarded Admitted (StepOf step)) s labels s' := by
    refine run.ends_well_iff ?_ ?_ ?_ apart new
    · rintro s v _ rfl met before b mem
      rw [grows] at mem
      rcases List.mem_append.mp mem with added | old
      · exact (admitted s v).mp met b added
      · exact before b old
    · rintro s v _ rfl unmet _ after
      exact unmet ((admitted s v).mpr fun b mem => after b (by
        rw [grows]
        exact List.mem_append_left _ mem))
    · rintro s v _ rfl bad after
      exact bad fun b mem => after b (by
        rw [grows]
        exact List.mem_append_right _ mem)
  exact not_not.symm.trans whole

/-! ## Calls -/

section Calls

variable {ρ : Type} (gateway : LLMGateway) (kind : ModelKind) (blocked : List String)
  (prices : ModelSpec → Prices) (usageOf : ρ → Usage)

/-- What a segment of a call adds to `attempts`, newest first. -/
def Call.adds (call : Call ρ) (answer : Answer ρ) (now : ℚ) (breakers : Breakers) : List Billed :=
  match call.point, answer with
  | .choosing, _ =>
      ((nextTarget gateway.isAvailable blocked now call.targets breakers).skips.map
        (billedSkip kind)).reverse
  | .invoking spec n started _, .proceed (.error err) _ =>
      [bill (prices spec) (failedRecord kind spec n started now none err) none]
  | .invoking spec n started _, .proceed (.result r) _ =>
      [bill (prices spec) (successRecord kind spec n started now none) (some (usageOf r))]
  | _, _ => []

/-- What a segment of a call hands to the recorder. -/
def Call.hands (call : Call ρ) (answer : Answer ρ) (now : ℚ) : List Billed :=
  match call.point, answer with
  | .invoking spec n started _, .proceed (.error err) _ =>
      [bill (prices spec) (failedRecord kind spec n started now none err) none]
  | .invoking spec n started _, .proceed (.result r) _ =>
      [bill (prices spec) (successRecord kind spec n started now none) (some (usageOf r))]
  | .invoking spec n started _, .cancelled =>
      [bill (prices spec) (cancelledRecord kind spec n started now none) none]
  | _, _ => []

/-- A call with what it reports and what was recorded, newest first. -/
structure Billing (ρ : Type) where
  call : Call ρ
  trail : List Billed := []
  ledger : List Billed := []

/-- What a call finds when it goes on: its answer, the time, and the breakers as other calls left
them. -/
structure Visit (ρ : Type) where
  answer : Answer ρ
  now : ℚ
  breakers : Breakers

def Billing.step (s : Billing ρ) (v : Visit ρ) : Billing ρ where
  call := (s.call.resume gateway kind blocked v.answer v.now v.breakers).state
  trail := s.call.adds gateway kind blocked prices usageOf v.answer v.now v.breakers ++ s.trail
  ledger := s.call.hands kind prices usageOf v.answer v.now ++ s.ledger

/-- A call before its first step. -/
def Billing.start (targets : List ModelSpec) (deadline : ℚ) : Billing ρ :=
  { call := { targets, deadline } }

/-- The target the call turns to is admitted. -/
def Billing.TurnsAdmitted (s : Billing ρ) (v : Visit ρ) : Prop :=
  match s.call.point with
  | .choosing => ∀ t ∈ s.call.targets.head?, Admissible gateway.isAvailable blocked v.now v.breakers t
  | _ => True

/-- The call has run to its end. -/
def Billing.ended (s : Billing ρ) : Bool :=
  match s.call.point with
  | .ended (.returned _ _) | .ended (.failed _) => true
  | _ => false

/-- `ChatOutcome.cost_usd` -/
def Billing.costUsd (s : Billing ρ) : ℚ := (s.trail.map Billed.costUsd).sum

/-- **The records are the attempts the call reports, one for one, and cost what it reports.** -/
structure Billing.Accounted (s : Billing ρ) : Prop where
  reported : s.trail.reverse.map Billed.record = s.call.attempts
  recorded : s.ledger = s.trail
  cost : (s.ledger.map Billed.costUsd).sum = s.costUsd

variable {gateway kind blocked prices usageOf}

/-- No target is passed over if and only if the first is admitted. -/
theorem skips_nil_iff (provider : ModelSpec → Bool) (now : ℚ) (targets : List ModelSpec)
    (breakers : Breakers) :
    (nextTarget provider blocked now targets breakers).skips = [] ↔
      ∀ t ∈ targets.head?, Admissible provider blocked now breakers t := by
  rcases nextTarget_cases provider blocked now targets breakers with
    ⟨before, spec, rest, shape, refused, ready, -, passed, -⟩ | ⟨refused, -, passed, -⟩
  · rw [← List.map_eq_nil_iff (f := Prod.fst), passed, shape]
    cases before with
    | nil =>
        refine iff_of_true rfl ?_
        rintro t ⟨⟩
        exact ready
    | cons first before =>
        refine iff_of_false (List.cons_ne_nil _ _) fun all => ?_
        exact refused first List.mem_cons_self (all first rfl)
  · rw [← List.map_eq_nil_iff (f := Prod.fst), passed]
    cases targets with
    | nil => exact iff_of_true rfl fun _ none => nomatch none
    | cons first targets =>
        refine iff_of_false (List.cons_ne_nil _ _) fun all => ?_
        exact refused first List.mem_cons_self (all first rfl)

/-- The records a call makes of the targets passed over. -/
theorem map_billedSkip (skips : List (ModelSpec × String)) :
    (skips.map (billedSkip kind)).map Billed.record = skips.map fun s => skipRecord kind s.1 s.2 := by
  rw [List.map_map]
  rfl

/-- **What is added is what the call reports.** -/
theorem resume_attempts (call : Call ρ) (answer : Answer ρ) (now : ℚ) (breakers : Breakers) :
    (call.resume gateway kind blocked answer now breakers).state.attempts =
      call.attempts ++
        (call.adds gateway kind blocked prices usageOf answer now breakers).reverse.map
          Billed.record := by
  unfold Call.resume Call.adds
  cases here : call.point with
  | choosing =>
      dsimp only
      rw [List.reverse_reverse, map_billedSkip]
      unfold Call.choose
      dsimp only
      cases (nextTarget gateway.isAvailable blocked now call.targets breakers).found with
      | none => rfl
      | some found =>
          dsimp only
          unfold Call.attempt
          split <;> rfl
  | invoking spec n started timeout =>
      cases answer with
      | proceed outcome draw => cases outcome <;> rfl
      | raised => exact (List.append_nil _).symm
      | cancelled => exact (List.append_nil _).symm
  | reporting spec n err =>
      have settled : ∀ draw, (call.settle gateway spec n err now draw breakers).state.attempts =
          call.attempts ++ [] := by
        intro draw
        rw [List.append_nil]
        unfold Call.settle
        split
        · rfl
        · split <;> rfl
      cases answer with
      | proceed outcome draw => exact settled draw
      | raised => exact settled 0
      | cancelled => exact (List.append_nil _).symm
  | sleeping spec n until_ =>
      cases answer with
      | proceed outcome draw =>
          dsimp only
          rw [List.reverse_nil, List.map_nil, List.append_nil]
          unfold Call.attempt
          split <;> rfl
      | raised => exact (List.append_nil _).symm
      | cancelled => exact (List.append_nil _).symm
  | delivering spec r => cases answer <;> exact (List.append_nil _).symm
  | ended ending => exact (List.append_nil _).symm

/-- **Handed to the recorder** is what is added and not skipped, unless the call is cancelled. -/
theorem hands_cases (call : Call ρ) (answer : Answer ρ) (now : ℚ) (breakers : Breakers) :
    call.hands kind prices usageOf answer now =
        (call.adds gateway kind blocked prices usageOf answer now breakers).filter (!·.skipped) ∨
      (call.resume gateway kind blocked answer now breakers).state.point = .ended .cancelled := by
  unfold Call.hands Call.adds
  cases here : call.point with
  | choosing =>
      left
      dsimp only
      symm
      apply List.filter_eq_nil_iff.mpr
      intro b mem
      obtain ⟨skip, -, rfl⟩ := List.mem_map.mp (List.mem_reverse.mp mem)
      exact Bool.false_ne_true
  | invoking spec n started timeout =>
      cases answer with
      | proceed outcome draw =>
          left
          cases outcome with
          | result r => rfl
          | error err =>
              dsimp only
              rw [List.filter_cons_of_pos (by simp), List.filter_nil]
      | raised => exact .inl rfl
      | cancelled =>
          right
          unfold Call.resume
          rw [here]
          rfl
  | reporting spec n err => exact .inl rfl
  | sleeping spec n until_ => exact .inl rfl
  | delivering spec r => exact .inl rfl
  | ended ending => exact .inl rfl

/-- **A step adds no skipped record if and only if the target it turns to is admitted.** -/
theorem admitted_iff (s : Billing ρ) (v : Visit ρ) :
    s.TurnsAdmitted gateway blocked v ↔
      ∀ b ∈ s.call.adds gateway kind blocked prices usageOf v.answer v.now v.breakers,
        b.skipped = false := by
  unfold Billing.TurnsAdmitted Call.adds
  cases here : s.call.point with
  | choosing =>
      dsimp only
      rw [← skips_nil_iff]
      constructor
      · intro none
        rw [none]
        exact fun _ mem => absurd mem List.not_mem_nil
      · intro all
        rw [List.eq_nil_iff_forall_not_mem]
        intro skip mem
        have listed : billedSkip kind skip ∈ ((nextTarget gateway.isAvailable blocked v.now
            s.call.targets v.breakers).skips.map (billedSkip kind)).reverse :=
          List.mem_reverse.mpr (List.mem_map_of_mem mem)
        exact Bool.noConfusion (all _ listed)
  | invoking spec n started timeout =>
      refine iff_of_true trivial ?_
      cases v.answer with
      | proceed outcome draw => cases outcome <;> simp
      | raised => exact fun _ mem => absurd mem List.not_mem_nil
      | cancelled => exact fun _ mem => absurd mem List.not_mem_nil
  | reporting spec n err => exact iff_of_true trivial fun _ mem => absurd mem List.not_mem_nil
  | sleeping spec n until_ => exact iff_of_true trivial fun _ mem => absurd mem List.not_mem_nil
  | delivering spec r => exact iff_of_true trivial fun _ mem => absurd mem List.not_mem_nil
  | ended ending => exact iff_of_true trivial fun _ mem => absurd mem List.not_mem_nil

/-- What holds of a call and its records on every run. -/
structure Billing.Kept (s : Billing ρ) : Prop where
  reported : s.trail.reverse.map Billed.record = s.call.attempts
  recorded : s.call.point = .ended .cancelled ∨ s.ledger = s.trail.filter (!·.skipped)

theorem kept_step {s : Billing ρ} (kept : s.Kept) (v : Visit ρ) :
    (s.step gateway kind blocked prices usageOf v).Kept where
  reported := by
    show List.map Billed.record (List.reverse (_ ++ s.trail)) = _
    rw [List.reverse_append, List.map_append, kept.reported]
    exact (resume_attempts s.call v.answer v.now v.breakers).symm
  recorded := by
    rcases kept.recorded with gone | same
    · left
      show (s.call.resume gateway kind blocked v.answer v.now v.breakers).state.point = _
      unfold Call.resume
      rw [gone]
      exact gone
    rcases @hands_cases ρ gateway kind blocked prices usageOf s.call v.answer v.now v.breakers with
      handed | gone
    · right
      show _ ++ s.ledger = List.filter _ (_ ++ s.trail)
      rw [handed, same, List.filter_append]
    · exact .inl gone

/-- **A call's records are its attempts if and only if no target is passed over.** -/
theorem accounted_iff {targets : List ModelSpec} {deadline : ℚ} {visits : List (Visit ρ)}
    {s : Billing ρ}
    (ran : Run (StepOf (Billing.step gateway kind blocked prices usageOf))
      (Billing.start targets deadline) visits s)
    (ceased : s.ended = true) :
    s.Accounted ↔
      Run (Guarded (Billing.TurnsAdmitted gateway blocked)
        (StepOf (Billing.step gateway kind blocked prices usageOf)))
        (Billing.start targets deadline) visits s := by
  have kept : s.Kept := ran.invariant
    (by
      rintro s v _ rfl kept
      exact kept_step kept v)
    ⟨rfl, .inr rfl⟩
  have same : s.ledger = s.trail.filter (!·.skipped) := by
    rcases kept.recorded with gone | same
    · rw [Billing.ended, gone] at ceased
      cases ceased
    · exact same
  rw [← unskipped_iff Billing.trail (fun _ _ => rfl) admitted_iff ran
    (fun _ mem => absurd mem List.not_mem_nil)]
  constructor
  · intro accounted b mem
    have all := List.filter_eq_self.mp (same.symm.trans accounted.recorded) b mem
    simpa using all
  · intro unskipped
    have whole : s.ledger = s.trail := by
      rw [same]
      exact List.filter_eq_self.mpr fun b mem => by simp [unskipped b mem]
    exact ⟨kept.reported, whole, by rw [whole, Billing.costUsd]⟩

end Calls

/-! ## Streams -/

section Streams

variable (gateway : LLMGateway) (blocked : List String) (prices : ModelSpec → Prices)
  (messages : List ChatMessage)

/-- `_partial_usage` -/
def partialUsage (messages : List ChatMessage) (produced : List String) : Usage where
  promptTokens := (messages.map fun m => estimateTokens m.content.text).sum
  completionTokens := estimateTokens (String.join produced)
  estimated := true

/-- How the `try` of an attempt is left, where it makes a record. -/
inductive Closing where
  | succeeded (a : Attempt) (ttft : ℚ)
  | failed (a : Attempt) (ttft : Option ℚ) (err : ProviderError) (emitted : Bool)
  | cancelled (a : Attempt) (ttft : Option ℚ)

/-- What a segment makes a record of; `completed` is the attempt whose end was handed on. -/
def Stream.closes (stream : Stream) (completed : Option (Attempt × ℚ)) (answer : StreamAnswer)
    (now : ℚ) : Option Closing :=
  match stream.point, answer with
  | .opening a _, .proceed (.error err) _ => some (.failed a none err false)
  | .opening a _, .proceed .exhausted _ => some (.failed a none (unmarked a.spec) false)
  | .opening a _, .cancelled => some (.cancelled a none)
  | .announced a ttft (.finish _), .proceed _ _ => some (.succeeded a ttft)
  | .announced a ttft _, .cancelled => some (.cancelled a (some ttft))
  | .passing a ttft, .proceed _ _ =>
      if min gateway.config.streamIdleTimeoutS (stream.deadline - now) ≤ 0 then
        some (.failed a (some ttft)
          (providerError .timeout a.spec.provider "stream exceeded request deadline") true)
      else none
  | .passing a ttft, .cancelled => some (.cancelled a (some ttft))
  | .waiting a ttft _ _, .proceed (.item (.finish _)) _ => some (.succeeded a ttft)
  | .waiting a ttft _ _, .proceed .exhausted _ =>
      some (.failed a (some ttft) (unmarked a.spec) true)
  | .waiting a ttft _ _, .proceed (.error err) _ => some (.failed a (some ttft) err true)
  | .waiting a ttft _ _, .cancelled => some (.cancelled a (some ttft))
  -- the record is written and the last event handed on inside the `try`
  | .completing a ttft _, .cancelled => some (.cancelled a (some ttft))
  | .finished, .cancelled => completed.map fun c => .cancelled c.1 (some c.2)
  | _, _ => none

/-- The record; `usage` is what the end of the provider's stream says. -/
def Closing.billed (produced : List String) (usage : Usage) (now : ℚ) : Closing → Billed
  | .succeeded a ttft =>
      bill (prices a.spec) (successRecord .chat a.spec a.n a.started now (some ttft)) (some usage)
  | .failed a ttft err emitted =>
      bill (prices a.spec) (failedRecord .chat a.spec a.n a.started now ttft err)
        (if emitted then some (partialUsage messages produced) else none)
  | .cancelled a ttft =>
      bill (prices a.spec) (cancelledRecord .chat a.spec a.n a.started now ttft)
        (some (partialUsage messages produced))

/-- Whether it is appended to `attempts`. -/
def Closing.reported : Closing → Bool
  | .cancelled _ _ => false
  | _ => true

/-- What the last event of a stream reports. -/
structure Report where
  attempts : List AttemptRecord
  costUsd : Option ℚ

/-- `record` is the one made last. -/
def StreamEvent.report (record : Option Billed) : StreamEvent → Option Report
  | .completed _ _ _ _ attempts => some { attempts, costUsd := record.map Billed.costUsd }
  | .failed _ _ _ attempts => some { attempts, costUsd := none }
  | _ => none

inductive Fate where
  | running
  /-- its `StreamEnd` was received -/
  | finished
  /-- the consumer stopped before that -/
  | stopped
  | failed
deriving DecidableEq

/-- The outcomes an attempt may be recorded with. -/
def Fate.outcomes : Fate → List AttemptOutcome
  | .running => []
  | .finished => [.success]
  | .stopped => [.cancelled]
  | .failed => [.error, .timeout]

/-- A provider attempt that was started, and what became of it. -/
structure Tried where
  spec : ModelSpec
  n : Nat
  fate : Fate := .running
deriving DecidableEq

/-- The fate of the attempt under way, if there is one. -/
def settled (fate : Fate) : List Tried → List Tried
  | t :: rest => (if t.fate = .running then { t with fate } else t) :: rest
  | [] => []

/-- What a note says of the attempts, newest first. -/
def observe (tried : List Tried) : StreamNote → List Tried
  | .note (.started spec n _ _) => { spec, n } :: tried
  | .received _ _ (.finish _) => settled .finished tried
  | .note (.failed _ _ _ _ _ _) => settled .failed tried
  | _ => tried

/-- The attempts when a stream is left without an event. -/
def abandon (answer : StreamAnswer) (tried : List Tried) : List Tried :=
  match answer with
  | .proceed _ _ => tried
  | .raised => settled .failed tried
  | .cancelled => settled .stopped tried

/-- A stream with what it reports and what was recorded, newest first. -/
structure StreamBilling where
  stream : Stream
  produced : List String := []
  completed : Option (Attempt × ℚ) := none
  record : Option Billed := none
  trail : List Billed := []
  ledger : List Billed := []
  report : Option Report := none
  tried : List Tried := []

/-- What a stream finds when it goes on; the usage is that of the end it received. -/
structure StreamVisit where
  answer : StreamAnswer
  usage : Usage := {}
  now : ℚ
  breakers : Breakers

def delta? : StreamEvent → Option String
  | .delta text => some text
  | _ => none

namespace StreamBilling

/-- The record a step makes. -/
def closing (s : StreamBilling) (v : StreamVisit) : Option (Closing × Billed) :=
  (s.stream.closes gateway s.completed v.answer v.now).map fun c =>
    (c, c.billed prices messages s.produced v.usage v.now)

/-- What a step adds to `attempts`, newest first. -/
def adds (s : StreamBilling) (v : StreamVisit) : List Billed :=
  match s.stream.point with
  | .choosing =>
      ((nextTarget gateway.chatProvider blocked v.now s.stream.targets v.breakers).skips.map
        (billedSkip .chat)).reverse
  | _ =>
      match s.closing gateway prices messages v with
      | some (c, b) => if c.reported then [b] else []
      | none => []

/-- What a step hands to the recorder. -/
def hands (s : StreamBilling) (v : StreamVisit) : List Billed :=
  ((s.closing gateway prices messages v).map Prod.snd).toList

def step (s : StreamBilling) (v : StreamVisit) : StreamBilling :=
  let next := s.stream.resume gateway blocked v.answer v.now v.breakers
  let tried := next.notes.foldl observe s.tried
  { stream := next.state
    produced :=
      match next.state.point with
      | .opening _ _ => []
      | _ => s.produced ++ (events next.notes).filterMap delta?
    completed :=
      match s.stream.point with
      | .completing a ttft _ => some (a, ttft)
      | _ => s.completed
    record := ((s.closing gateway prices messages v).map Prod.snd).or s.record
    trail := s.adds gateway blocked prices messages v ++ s.trail
    ledger := s.hands gateway prices messages v ++ s.ledger
    report := ((events next.notes).findSome? (StreamEvent.report s.record)).or s.report
    tried :=
      if s.stream.point ≠ .ended true ∧ next.state.point = .ended true then abandon v.answer tried
      else tried }

/-- `stream_chat` before its first step. -/
def start (route : String) (targets : List ModelSpec) (deadline requested : ℚ) : StreamBilling :=
  { stream := { route, targets, deadline, requested } }

/-- The target the stream turns to is admitted. -/
def TurnsAdmitted (s : StreamBilling) (v : StreamVisit) : Prop :=
  match s.stream.point with
  | .choosing =>
      ∀ t ∈ s.stream.targets.head?, Admissible gateway.chatProvider blocked v.now v.breakers t
  | _ => True

/-- **The records are the attempts the last event reports, one for one, and cost what it
reports.** -/
def Accounted (s : StreamBilling) : Prop :=
  s.ledger = s.trail ∧ ∃ report, s.report = some report ∧
    s.trail.reverse.map Billed.record = report.attempts ∧
    ∀ cost ∈ report.costUsd, (s.ledger.map Billed.costUsd).sum = cost

/-- The record is of this attempt, and its outcome is what became of it. -/
def Recorded (t : Tried) (b : Billed) : Prop :=
  b.record.modelId = t.spec.id ∧ b.record.attempt = t.n ∧ b.record.outcome ∈ t.fate.outcomes

instance (t : Tried) (b : Billed) : Decidable (Recorded t b) :=
  inferInstanceAs (Decidable (_ ∧ _ ∧ _))

/-- **Every attempt that was started has one record, and the right one.** -/
def OneEach (s : StreamBilling) : Prop := List.Forall₂ Recorded s.tried s.ledger

/-- The consumer does not stop inside the `try` once the end of the provider's stream is there, and
only provider errors leave it. -/
def Harmless (s : StreamBilling) (v : StreamVisit) : Prop :=
  match s.stream.point, v.answer with
  | .announced _ _ (.finish _), .cancelled => False
  | .completing _ _ _, .cancelled => False
  | .finished, .cancelled => s.completed = none
  | .opening _ _, .raised | .announced _ _ _, .raised => False
  | .passing _ _, .raised | .waiting _ _ _ _, .raised => False
  | _, _ => True

variable {gateway blocked prices messages}

/-- **What is added is what the stream reports.** -/
theorem resume_attempts (s : StreamBilling) (v : StreamVisit) :
    (s.stream.resume gateway blocked v.answer v.now v.breakers).state.attempts =
      s.stream.attempts ++
        (s.adds gateway blocked prices messages v).reverse.map Billed.record := by
  unfold Stream.resume adds closing Stream.closes
  cases here : s.stream.point with
  | choosing =>
      have chosen : ∀ arrival draw,
          (s.stream.proceed gateway blocked arrival draw v.now v.breakers).state.attempts =
            s.stream.attempts ++ ((((nextTarget gateway.chatProvider blocked v.now s.stream.targets
              v.breakers).skips.map (billedSkip .chat)).reverse).reverse.map Billed.record) := by
        intro arrival draw
        unfold Stream.proceed
        rw [here, List.reverse_reverse, map_billedSkip]
        dsimp only
        unfold Stream.choose
        dsimp only
        cases (nextTarget gateway.chatProvider blocked v.now s.stream.targets v.breakers).found with
        | none => rfl
        | some found =>
            dsimp only
            unfold Stream.attempt
            split <;> rfl
      cases v.answer <;> exact chosen _ _
  | opening a timeout =>
      cases v.answer with
      | proceed arrival draw =>
          unfold Stream.proceed
          rw [here]
          cases arrival with
          | item item => exact (List.append_nil _).symm
          | exhausted => rfl
          | error err => rfl
      | raised => exact (List.append_nil _).symm
      | cancelled => exact (List.append_nil _).symm
  | announced a ttft item =>
      cases v.answer with
      | proceed arrival draw =>
          unfold Stream.proceed
          rw [here]
          cases item with
          | delta text => exact (List.append_nil _).symm
          | finish reason => rfl
      | raised => cases item <;> exact (List.append_nil _).symm
      | cancelled => cases item <;> exact (List.append_nil _).symm
  | passing a ttft =>
      cases v.answer with
      | proceed arrival draw =>
          unfold Stream.proceed
          rw [here]
          dsimp only
          split
          · rfl
          · exact (List.append_nil _).symm
      | raised => exact (List.append_nil _).symm
      | cancelled => exact (List.append_nil _).symm
  | waiting a ttft since idle =>
      cases v.answer with
      | proceed arrival draw =>
          unfold Stream.proceed
          rw [here]
          cases arrival with
          | item item =>
              cases item with
              | delta text => exact (List.append_nil _).symm
              | finish reason => rfl
          | exhausted => rfl
          | error err => rfl
      | raised => exact (List.append_nil _).symm
      | cancelled => exact (List.append_nil _).symm
  | completing a ttft reason =>
      cases v.answer with
      | proceed arrival draw =>
          unfold Stream.proceed
          rw [here]
          exact (List.append_nil _).symm
      | raised =>
          unfold Stream.proceed
          rw [here]
          exact (List.append_nil _).symm
      | cancelled => exact (List.append_nil _).symm
  | reporting a err emitted =>
      have settled : ∀ draw,
          (s.stream.settle gateway a err emitted v.now draw v.breakers).state.attempts =
            s.stream.attempts ++ [] := by
        intro draw
        rw [List.append_nil]
        unfold Stream.settle
        split
        · rfl
        · split
          · rfl
          · split <;> rfl
      cases v.answer with
      | proceed arrival draw =>
          unfold Stream.proceed
          rw [here]
          exact settled draw
      | raised =>
          unfold Stream.proceed
          rw [here]
          exact settled 0
      | cancelled => exact (List.append_nil _).symm
  | sleeping spec n until_ =>
      cases v.answer with
      | proceed arrival draw =>
          unfold Stream.proceed
          rw [here]
          exact (List.append_nil _).symm
      | raised => exact (List.append_nil _).symm
      | cancelled => exact (List.append_nil _).symm
  | closing again =>
      cases v.answer with
      | proceed arrival draw =>
          unfold Stream.proceed
          rw [here]
          cases again with
          | none => exact (List.append_nil _).symm
          | some next =>
              show (s.stream.attempt gateway next.1 next.2 v.now).1.attempts = s.stream.attempts ++ []
              rw [List.append_nil]
              unfold Stream.attempt
              split <;> rfl
      | raised => exact (List.append_nil _).symm
      | cancelled => exact (List.append_nil _).symm
  | finished =>
      cases v.answer with
      | proceed arrival draw =>
          unfold Stream.proceed
          rw [here]
          exact (List.append_nil _).symm
      | raised => exact (List.append_nil _).symm
      | cancelled => cases s.completed <;> exact (List.append_nil _).symm
  | ended aborted =>
      have same : ∀ arrival draw,
          (s.stream.proceed gateway blocked arrival draw v.now v.breakers).state.attempts =
            s.stream.attempts ++ [] := by
        intro arrival draw
        unfold Stream.proceed
        rw [here]
        exact (List.append_nil _).symm
      cases v.answer <;> exact same _ _

/-- A stream that is left by an exception is over, and reports nothing more. -/
theorem resume_cases (s : StreamBilling) (v : StreamVisit) :
    (∃ arrival draw, s.stream.resume gateway blocked v.answer v.now v.breakers =
      s.stream.proceed gateway blocked arrival draw v.now v.breakers) ∨
    s.stream.resume gateway blocked v.answer v.now v.breakers = s.stream.abort v.breakers := by
  unfold Stream.resume
  cases v.answer with
  | proceed arrival draw => exact .inl ⟨arrival, draw, rfl⟩
  | raised =>
      cases s.stream.point with
      | choosing | ended _ | completing _ _ _ | reporting _ _ _ => exact .inl ⟨_, _, rfl⟩
      | _ => exact .inr rfl
  | cancelled =>
      cases s.stream.point with
      | choosing | ended _ => exact .inl ⟨_, _, rfl⟩
      | _ => exact .inr rfl

/-- Turning to a target closes nothing. -/
theorem closing_choosing {s : StreamBilling} (here : s.stream.point = .choosing) (v : StreamVisit) :
    s.closing gateway prices messages v = none := by
  unfold closing Stream.closes
  rw [here]
  rfl

/-- A record that is not reported is made when the stream is left. -/
theorem unreported_left {s : StreamBilling} {v : StreamVisit} {c : Closing} {b : Billed}
    (closing : s.closing gateway prices messages v = some (c, b)) (unreported : c.reported = false) :
    s.stream.resume gateway blocked v.answer v.now v.breakers = s.stream.abort v.breakers := by
  obtain ⟨c', closes, same⟩ := Option.map_eq_some_iff.mp closing
  obtain ⟨rfl, -⟩ := Prod.mk.inj same
  cases c' with
  | succeeded a ttft => cases unreported
  | failed a ttft err emitted => cases unreported
  | cancelled a ttft =>
      unfold Stream.closes at closes
      unfold Stream.resume
      cases answered : v.answer with
      | proceed arrival draw =>
          rw [answered] at closes
          split at closes <;> first | contradiction | cases closes | (split at closes <;> cases closes)
      | raised =>
          rw [answered] at closes
          split at closes <;> contradiction
      | cancelled =>
          rw [answered] at closes
          cases here : s.stream.point with
          | choosing | ended _ =>
              rw [here] at closes
              cases closes
          | _ => rfl

/-- Away from the choice of a target, what a step adds is the record it makes, if reported. -/
theorem adds_eq {s : StreamBilling} (elsewhere : s.stream.point ≠ .choosing) (v : StreamVisit) :
    s.adds gateway blocked prices messages v =
      match s.closing gateway prices messages v with
      | some (c, b) => if c.reported then [b] else []
      | none => [] := by
  unfold adds
  split
  · exact absurd ‹_› elsewhere
  · rfl

/-- **Handed to the recorder** is what is added and not skipped, unless the stream is left. -/
theorem hands_cases (s : StreamBilling) (v : StreamVisit) :
    s.hands gateway prices messages v =
        (s.adds gateway blocked prices messages v).filter (!·.skipped) ∨
      (s.stream.resume gateway blocked v.answer v.now v.breakers).state.point = .ended true := by
  by_cases choosing : s.stream.point = .choosing
  · left
    unfold hands adds
    rw [closing_choosing choosing, choosing]
    symm
    apply List.filter_eq_nil_iff.mpr
    intro b mem
    obtain ⟨skip, -, rfl⟩ := List.mem_map.mp (List.mem_reverse.mp mem)
    simp
  rw [adds_eq choosing]
  unfold hands
  cases closing : s.closing gateway prices messages v with
  | none => exact .inl rfl
  | some made =>
      obtain ⟨c, b⟩ := made
      cases reported : c.reported with
      | false =>
          right
          rw [unreported_left closing reported]
          rfl
      | true =>
          left
          obtain ⟨c', -, same⟩ := Option.map_eq_some_iff.mp closing
          obtain ⟨rfl, rfl⟩ := Prod.mk.inj same
          cases c' with
          | cancelled a ttft => cases reported
          | succeeded a ttft => simp [reported, Closing.billed]
          | failed a ttft err emitted => simp [reported, Closing.billed]

/-- **A step adds no skipped record if and only if the target it turns to is admitted.** -/
theorem admitted_iff (s : StreamBilling) (v : StreamVisit) :
    s.TurnsAdmitted gateway blocked v ↔
      ∀ b ∈ s.adds gateway blocked prices messages v, b.skipped = false := by
  by_cases choosing : s.stream.point = .choosing
  · unfold TurnsAdmitted adds
    rw [choosing]
    dsimp only
    rw [← skips_nil_iff]
    constructor
    · intro none
      rw [none]
      exact fun _ mem => absurd mem List.not_mem_nil
    · intro all
      rw [List.eq_nil_iff_forall_not_mem]
      intro skip mem
      have listed : billedSkip .chat skip ∈ ((nextTarget gateway.chatProvider blocked v.now
          s.stream.targets v.breakers).skips.map (billedSkip .chat)).reverse :=
        List.mem_reverse.mpr (List.mem_map_of_mem mem)
      exact Bool.noConfusion (all _ listed)
  · refine iff_of_true ?_ ?_
    · unfold TurnsAdmitted
      split
      · exact absurd ‹_› choosing
      · trivial
    · rw [adds_eq choosing]
      split
      · rename_i c b closing
        obtain ⟨c', -, same⟩ := Option.map_eq_some_iff.mp closing
        obtain ⟨rfl, rfl⟩ := Prod.mk.inj same
        cases c' with
        | cancelled a ttft => exact fun _ mem => absurd mem List.not_mem_nil
        | succeeded a ttft => simp [Closing.reported, Closing.billed]
        | failed a ttft err emitted => simp [Closing.reported, Closing.billed]
      · exact fun _ mem => absurd mem List.not_mem_nil

/-- What a stream's records cost. -/
def total (records : List Billed) : ℚ := (records.map Billed.costUsd).sum

/-- What its attempts have cost where a stream stands, and what its last event reports. -/
def Owes (record : Option Billed) (spent : ℚ) (report : Option Report)
    (attempts : List AttemptRecord) : StreamPoint → Prop
  | .completing _ _ _ => ∃ b, record = some b ∧ spent = b.costUsd
  | .reporting _ _ true | .ended true => True
  | .finished | .ended false => ∃ last, report = some last ∧ last.attempts = attempts ∧
      ∀ cost ∈ last.costUsd, spent = cost
  | _ => spent = 0

def Costed (s : StreamBilling) : Prop :=
  Owes s.record (total s.trail) s.report s.stream.attempts s.stream.point

/-- What holds of a stream and its records on every run. -/
structure Kept (s : StreamBilling) : Prop where
  reported : s.trail.reverse.map Billed.record = s.stream.attempts
  recorded : s.stream.point = .ended true ∨ s.ledger = s.trail.filter (!·.skipped)
  costed : s.Costed

theorem total_skips (skips : List (ModelSpec × String)) (trail : List Billed) :
    total ((skips.map (billedSkip .chat)).reverse ++ trail) = total trail := by
  have free : ((skips.map (billedSkip .chat)).reverse.map Billed.costUsd).sum = 0 := by
    apply List.sum_eq_zero
    intro cost mem
    obtain ⟨b, there, rfl⟩ := List.mem_map.mp mem
    obtain ⟨skip, -, rfl⟩ := List.mem_map.mp (List.mem_reverse.mp there)
    rfl
  unfold total
  rw [List.map_append, List.sum_append, free, zero_add]

/-- A stream that is left owes no report. -/
theorem costed_left {s : StreamBilling} {v : StreamVisit}
    (left : s.stream.resume gateway blocked v.answer v.now v.breakers = s.stream.abort v.breakers) :
    (s.step gateway blocked prices messages v).Costed := by
  have there : (s.step gateway blocked prices messages v).stream.point = .ended true := by
    show (s.stream.resume gateway blocked v.answer v.now v.breakers).state.point = _
    rw [left]
    rfl
  unfold Costed
  rw [there]
  trivial

/-- Quiet notes report nothing. -/
theorem report_append {front : List StreamNote} (quiet : events front = []) (notes : List StreamNote)
    (record : Option Billed) :
    (events (front ++ notes)).findSome? (StreamEvent.report record) =
      (events notes).findSome? (StreamEvent.report record) := by
  have split : events (front ++ notes) = events front ++ events notes := List.filterMap_append
  rw [split, quiet, List.nil_append]

/-- A first record costs what it says. -/
theorem paid {trail : List Billed} {b : Billed} (free : total trail = 0) :
    total (b :: trail) = b.costUsd := by
  have split : total (b :: trail) = b.costUsd + total trail := rfl
  rw [split, free, add_zero]

/-- The head of the attempt loop owes nothing. -/
theorem attempt_owes {front : List StreamNote} (quiet : events front = []) (stream : Stream)
    (spec : ModelSpec) (n : Nat) (now : ℚ) (record record' : Option Billed)
    (before : Option Report) :
    Owes record' 0
      (((events (front ++ (stream.attempt gateway spec n now).2)).findSome?
        (StreamEvent.report record)).or before)
      (stream.attempt gateway spec n now).1.attempts (stream.attempt gateway spec n now).1.point := by
  rw [report_append quiet]
  rcases Stream.attempt_cases gateway stream spec n now with
    ⟨-, attempted⟩ | ⟨-, timeout, attempted⟩
  · rw [attempted]
    exact ⟨⟨_, none⟩, rfl, rfl, fun _ none => nomatch none⟩
  · rw [attempted]
    rfl

/-- Turning to the next target costs nothing. -/
theorem costed_choosing {s : StreamBilling} (here : s.stream.point = .choosing)
    (costed : total s.trail = 0) (v : StreamVisit) :
    (s.step gateway blocked prices messages v).Costed := by
  have free : total (s.adds gateway blocked prices messages v ++ s.trail) = 0 := by
    unfold adds
    rw [here]
    dsimp only
    rw [total_skips]
    exact costed
  have chosen : s.stream.resume gateway blocked v.answer v.now v.breakers =
      s.stream.choose gateway blocked v.now v.breakers := by
    unfold Stream.resume Stream.proceed
    rw [here]
    cases v.answer <;> rfl
  unfold Costed step
  rw [chosen]
  dsimp only
  rw [free]
  rcases Stream.choose_cases gateway blocked s.stream v.now v.breakers with
    ⟨skips, spec, rest, -, -, shape⟩ | ⟨skips, -, shape⟩
  · rw [shape]
    exact attempt_owes (skips_silent skips).1 _ spec 1 v.now _ _ _
  · rw [shape]
    dsimp only
    rw [report_append (skips_silent skips).1]
    exact ⟨⟨_, none⟩, rfl, rfl, fun _ none => nomatch none⟩

/-- After the record of a failure; what was handed on has been paid for. -/
theorem costed_settle {s : StreamBilling} {a : Attempt} {err : ProviderError} {emitted : Bool}
    (here : s.stream.point = .reporting a err emitted)
    (costed : emitted = false → total s.trail = 0) {v : StreamVisit} {draw : ℚ}
    (settles : s.stream.resume gateway blocked v.answer v.now v.breakers =
      s.stream.settle gateway a err emitted v.now draw v.breakers) :
    (s.step gateway blocked prices messages v).Costed := by
  have closing : s.closing gateway prices messages v = none := by
    unfold StreamBilling.closing Stream.closes
    rw [here]
    cases v.answer <;> rfl
  unfold Costed step
  rw [settles, adds_eq (by rw [here]; exact nofun), closing]
  unfold Stream.settle
  cases emitted with
  | true => exact ⟨⟨_, none⟩, rfl, rfl, fun _ none => nomatch none⟩
  | false =>
      rw [if_neg Bool.false_ne_true]
      by_cases bad : err.kind = .badRequest
      · rw [if_pos bad]
        exact ⟨⟨_, none⟩, rfl, rfl, fun _ none => nomatch none⟩
      · rw [if_neg bad]
        cases shouldRetry gateway err a.spec a.n (v.breakers a.spec.id) s.stream.deadline v.now draw with
        | none => exact costed rfl
        | some delay => exact costed rfl

theorem costed_step {s : StreamBilling} (costed : s.Costed) (v : StreamVisit) :
    (s.step gateway blocked prices messages v).Costed := by
  unfold Costed at costed
  cases here : s.stream.point with
  | choosing =>
      rw [here] at costed
      exact costed_choosing here costed v
  | opening a timeout =>
      rw [here] at costed
      cases answered : v.answer with
      | proceed arrival draw =>
          unfold Costed step adds closing Stream.closes Stream.resume Stream.proceed
          rw [here, answered]
          cases arrival with
          | item item => exact costed
          | exhausted => exact (zero_add _).trans costed
          | error err => exact (zero_add _).trans costed
      | raised => exact costed_left (by unfold Stream.resume; rw [here, answered])
      | cancelled => exact costed_left (by unfold Stream.resume; rw [here, answered])
  | announced a ttft item =>
      rw [here] at costed
      cases answered : v.answer with
      | proceed arrival draw =>
          unfold Costed step adds closing Stream.closes Stream.resume Stream.proceed
          rw [here, answered]
          cases item with
          | delta text => exact costed
          | finish reason => exact ⟨_, rfl, paid costed⟩
      | raised => exact costed_left (by unfold Stream.resume; rw [here, answered])
      | cancelled => exact costed_left (by unfold Stream.resume; rw [here, answered])
  | passing a ttft =>
      rw [here] at costed
      cases answered : v.answer with
      | proceed arrival draw =>
          unfold Costed step adds closing Stream.closes Stream.resume Stream.proceed
          rw [here, answered]
          dsimp only
          split
          · trivial
          · exact costed
      | raised => exact costed_left (by unfold Stream.resume; rw [here, answered])
      | cancelled => exact costed_left (by unfold Stream.resume; rw [here, answered])
  | waiting a ttft since idle =>
      rw [here] at costed
      cases answered : v.answer with
      | proceed arrival draw =>
          unfold Costed step adds closing Stream.closes Stream.resume Stream.proceed
          rw [here, answered]
          cases arrival with
          | item item =>
              cases item with
              | delta text => exact costed
              | finish reason => exact ⟨_, rfl, paid costed⟩
          | exhausted => trivial
          | error err => trivial
      | raised => exact costed_left (by unfold Stream.resume; rw [here, answered])
      | cancelled => exact costed_left (by unfold Stream.resume; rw [here, answered])
  | completing a ttft reason =>
      rw [here] at costed
      obtain ⟨b, made, spent⟩ := costed
      have handed : ∀ {answer}, v.answer = answer → answer ≠ .cancelled →
          (s.step gateway blocked prices messages v).Costed := by
        intro answer answered live
        unfold Costed step adds closing Stream.closes Stream.resume Stream.proceed
        rw [here, answered]
        cases answer with
        | cancelled => exact absurd rfl live
        | proceed arrival draw =>
            refine ⟨⟨_, some b.costUsd⟩, by rw [made]; rfl, rfl, ?_⟩
            rintro cost ⟨⟩
            exact spent
        | raised =>
            refine ⟨⟨_, some b.costUsd⟩, by rw [made]; rfl, rfl, ?_⟩
            rintro cost ⟨⟩
            exact spent
      cases answered : v.answer with
      | proceed arrival draw => exact handed answered nofun
      | raised => exact handed answered nofun
      | cancelled => exact costed_left (by unfold Stream.resume; rw [here, answered])
  | reporting a err emitted =>
      rw [here] at costed
      have unpaid : emitted = false → total s.trail = 0 := by
        rintro rfl
        exact costed
      cases answered : v.answer with
      | proceed arrival draw =>
          exact costed_settle here unpaid (by
            unfold Stream.resume Stream.proceed
            rw [here, answered])
      | raised =>
          exact costed_settle here unpaid (by
            unfold Stream.resume Stream.proceed
            rw [here, answered])
      | cancelled => exact costed_left (by unfold Stream.resume; rw [here, answered])
  | sleeping spec n until_ =>
      rw [here] at costed
      cases answered : v.answer with
      | proceed arrival draw =>
          unfold Costed step adds closing Stream.closes Stream.resume Stream.proceed
          rw [here, answered]
          exact costed
      | raised => exact costed_left (by unfold Stream.resume; rw [here, answered])
      | cancelled => exact costed_left (by unfold Stream.resume; rw [here, answered])
  | closing again =>
      rw [here] at costed
      cases answered : v.answer with
      | proceed arrival draw =>
          unfold Costed step adds closing Stream.closes Stream.resume Stream.proceed
          rw [here, answered]
          cases again with
          | none => exact costed
          | some next =>
              have spent : total s.trail = 0 := costed
              have quiet : events [] = [] := rfl
              show Owes _ (total s.trail) _ _ _
              rw [spent]
              exact attempt_owes quiet s.stream next.1 next.2 v.now _ _ _
      | raised => exact costed_left (by unfold Stream.resume; rw [here, answered])
      | cancelled => exact costed_left (by unfold Stream.resume; rw [here, answered])
  | finished =>
      rw [here] at costed
      cases answered : v.answer with
      | proceed arrival draw =>
          unfold Costed step adds closing Stream.closes Stream.resume Stream.proceed
          rw [here, answered]
          exact costed
      | raised => exact costed_left (by unfold Stream.resume; rw [here, answered])
      | cancelled => exact costed_left (by unfold Stream.resume; rw [here, answered])
  | ended aborted =>
      rw [here] at costed
      unfold Costed step adds closing Stream.closes Stream.resume Stream.proceed
      rw [here]
      cases v.answer <;>
        · show Owes s.record (total s.trail) s.report s.stream.attempts s.stream.point
          rw [here]
          exact costed

theorem kept_step {s : StreamBilling} (kept : s.Kept) (v : StreamVisit) :
    (s.step gateway blocked prices messages v).Kept where
  reported := by
    show List.map Billed.record (List.reverse (_ ++ s.trail)) = _
    rw [List.reverse_append, List.map_append, kept.reported]
    exact (resume_attempts s v).symm
  recorded := by
    rcases kept.recorded with gone | same
    · left
      show (s.stream.resume gateway blocked v.answer v.now v.breakers).state.point = _
      unfold Stream.resume Stream.proceed
      rw [gone]
      cases v.answer <;> exact gone
    rcases @hands_cases gateway blocked prices messages s v with handed | gone
    · right
      show _ ++ s.ledger = List.filter _ (_ ++ s.trail)
      rw [handed, same, List.filter_append]
    · exact .inl gone
  costed := costed_step kept.costed v

/-- **A stream's records are its attempts if and only if no target is passed over.** -/
theorem accounted_iff {route : String} {targets : List ModelSpec} {deadline requested : ℚ}
    {visits : List StreamVisit} {s : StreamBilling}
    (ran : Run (StepOf (step gateway blocked prices messages))
      (start route targets deadline requested) visits s)
    (ceased : s.stream.point = .ended false) :
    s.Accounted ↔
      Run (Guarded (TurnsAdmitted gateway blocked) (StepOf (step gateway blocked prices messages)))
        (start route targets deadline requested) visits s := by
  have kept : s.Kept := ran.invariant
    (by
      rintro s v _ rfl kept
      exact kept_step kept v)
    ⟨rfl, .inr rfl, rfl⟩
  have same : s.ledger = s.trail.filter (!·.skipped) := by
    rcases kept.recorded with gone | same
    · rw [gone] at ceased
      cases ceased
    · exact same
  rw [← unskipped_iff trail (fun _ _ => rfl) admitted_iff ran
    (fun _ mem => absurd mem List.not_mem_nil)]
  constructor
  · intro accounted b mem
    have all := List.filter_eq_self.mp (same.symm.trans accounted.1) b mem
    simpa using all
  · intro unskipped
    have whole : s.ledger = s.trail := by
      rw [same]
      exact List.filter_eq_self.mpr fun b mem => by simp [unskipped b mem]
    have costed := kept.costed
    unfold Costed at costed
    rw [ceased] at costed
    obtain ⟨last, report, attempts, spent⟩ := costed
    refine ⟨whole, last, report, kept.reported.trans attempts.symm, ?_⟩
    intro cost there
    rw [whole]
    exact spent cost there

/-! ## One record for each attempt -/

/-- The attempt begun last is under way, and the others have their records. -/
def UnderWay (a : Attempt) (fate : Fate) (tried : List Tried) (ledger : List Billed) : Prop :=
  ∃ others, tried = { spec := a.spec, n := a.n, fate } :: others ∧
    List.Forall₂ Recorded others ledger

/-- Which attempts have a record where a stream stands. -/
def Matches (tried : List Tried) (ledger : List Billed) : StreamPoint → Prop
  | .opening a _ | .announced a _ (.delta _) | .passing a _ | .waiting a _ _ _ =>
      UnderWay a .running tried ledger
  | .announced a _ (.finish _) => UnderWay a .finished tried ledger
  | _ => List.Forall₂ Recorded tried ledger

/-- The attempt under way gets its record. -/
theorem UnderWay.recorded {a : Attempt} {fate : Fate} {tried : List Tried} {ledger : List Billed}
    (under : UnderWay a .running tried ledger) {b : Billed}
    (matched : Recorded { spec := a.spec, n := a.n, fate } b) :
    List.Forall₂ Recorded (settled fate tried) (b :: ledger) := by
  obtain ⟨others, rfl, each⟩ := under
  exact .cons matched each

/-- An attempt under way has no record. -/
theorem UnderWay.unrecorded {a : Attempt} {fate fate' : Fate} {tried : List Tried}
    {ledger : List Billed} (under : UnderWay a fate tried ledger) :
    ¬List.Forall₂ Recorded (settled fate' tried) ledger := by
  obtain ⟨others, rfl, each⟩ := under
  intro all
  have long := all.length_eq
  have short := each.length_eq
  simp only [settled, List.length_cons] at long
  omega

/-- A record too many. -/
theorem overrecorded {tried tried' : List Tried} {ledger : List Billed} (b : Billed)
    (each : List.Forall₂ Recorded tried ledger) (same : tried'.length = tried.length) :
    ¬List.Forall₂ Recorded tried' (b :: ledger) := by
  intro all
  have long := all.length_eq
  have short := each.length_eq
  rw [List.length_cons] at long
  omega

theorem failed_recorded (a : Attempt) (ttft : Option ℚ) (err : ProviderError) (now : ℚ)
    (usage : Option Usage) :
    Recorded { spec := a.spec, n := a.n, fate := .failed }
      (bill (prices a.spec) (failedRecord .chat a.spec a.n a.started now ttft err) usage) := by
  refine ⟨rfl, rfl, ?_⟩
  unfold bill failedRecord
  by_cases timeout : err.kind = .timeout
  · dsimp only
    rw [if_pos timeout]
    exact .tail _ (.head _)
  · dsimp only
    rw [if_neg timeout]
    exact .head _

/-- The targets passed over are not attempts. -/
theorem observe_skips (skips : List (ModelSpec × String)) (tried : List Tried) :
    (skips.map fun s => StreamNote.note (.skipped s.1 s.2)).foldl observe tried = tried := by
  induction skips with
  | nil => rfl
  | cons s skips ih => exact ih

/-- The head of the attempt loop begins an attempt or ends the stream. -/
theorem attempt_matches {tried : List Tried} {ledger : List Billed}
    (each : List.Forall₂ Recorded tried ledger) (stream : Stream) (spec : ModelSpec) (n : Nat)
    (now : ℚ) :
    Matches ((stream.attempt gateway spec n now).2.foldl observe tried) ledger
      (stream.attempt gateway spec n now).1.point ∧
      (stream.attempt gateway spec n now).1.point ≠ .ended true := by
  rcases Stream.attempt_cases gateway stream spec n now with
    ⟨-, attempted⟩ | ⟨-, timeout, attempted⟩
  · rw [attempted]
    exact ⟨each, nofun⟩
  · rw [attempted]
    exact ⟨⟨tried, rfl, each⟩, nofun⟩

/-- A step that hands nothing to the recorder. -/
theorem step_ledger_of_none {s : StreamBilling} {v : StreamVisit}
    (closing : s.closing gateway prices messages v = none) :
    (s.step gateway blocked prices messages v).ledger = s.ledger := by
  show s.hands gateway prices messages v ++ s.ledger = s.ledger
  unfold hands
  rw [closing]
  rfl

/-- While a stream goes on, its notes say what became of the attempts. -/
theorem step_tried_of_live {s : StreamBilling} {v : StreamVisit}
    (live : (s.stream.resume gateway blocked v.answer v.now v.breakers).state.point ≠ .ended true) :
    (s.step gateway blocked prices messages v).tried =
      (s.stream.resume gateway blocked v.answer v.now v.breakers).notes.foldl observe s.tried :=
  if_neg fun both => live both.2

/-- Turning to the next target, every attempt has its record. -/
theorem matches_choosing {s : StreamBilling} (here : s.stream.point = .choosing)
    (before : List.Forall₂ Recorded s.tried s.ledger) (v : StreamVisit) :
    Matches (s.step gateway blocked prices messages v).tried
      (s.step gateway blocked prices messages v).ledger
      (s.step gateway blocked prices messages v).stream.point := by
  have chosen : s.stream.resume gateway blocked v.answer v.now v.breakers =
      s.stream.choose gateway blocked v.now v.breakers := by
    unfold Stream.resume Stream.proceed
    rw [here]
    cases v.answer <;> rfl
  have next : Matches
        ((s.stream.choose gateway blocked v.now v.breakers).notes.foldl observe s.tried) s.ledger
        (s.stream.choose gateway blocked v.now v.breakers).state.point ∧
      (s.stream.choose gateway blocked v.now v.breakers).state.point ≠ .ended true := by
    rcases Stream.choose_cases gateway blocked s.stream v.now v.breakers with
      ⟨skips, spec, rest, -, -, shape⟩ | ⟨skips, -, shape⟩
    · rw [shape]
      dsimp only
      rw [List.foldl_append, observe_skips]
      exact attempt_matches before _ spec 1 v.now
    · rw [shape]
      dsimp only
      rw [List.foldl_append, observe_skips]
      exact ⟨before, nofun⟩
  rw [step_ledger_of_none (closing_choosing here v), step_tried_of_live (by rw [chosen]; exact next.2)]
  show Matches _ _ (s.stream.resume gateway blocked v.answer v.now v.breakers).state.point
  rw [chosen]
  exact next.1

/-- Attempts with a record are not under way. -/
theorem abandon_recorded {tried : List Tried} {ledger : List Billed}
    (each : List.Forall₂ Recorded tried ledger) (answer : StreamAnswer) :
    abandon answer tried = tried := by
  have kept : ∀ fate, settled fate tried = tried := by
    intro fate
    cases each with
    | nil => rfl
    | @cons t b tried ledger first others =>
        have ceased : t.fate ≠ .running := by
          intro running
          have none := first.2.2
          rw [running] at none
          exact absurd none List.not_mem_nil
        simp only [settled, if_neg ceased]
  cases answer with
  | proceed arrival draw => rfl
  | raised => exact kept .failed
  | cancelled => exact kept .stopped

/-- Leaving a stream with no attempt under way. -/
theorem matches_left {s : StreamBilling} {v : StreamVisit}
    (each : List.Forall₂ Recorded s.tried s.ledger)
    (left : s.stream.resume gateway blocked v.answer v.now v.breakers = s.stream.abort v.breakers)
    (closing : s.closing gateway prices messages v = none) :
    Matches (s.step gateway blocked prices messages v).tried
      (s.step gateway blocked prices messages v).ledger
      (s.step gateway blocked prices messages v).stream.point := by
  rw [step_ledger_of_none closing]
  unfold step
  rw [left]
  show List.Forall₂ Recorded (if _ then abandon v.answer s.tried else s.tried) s.ledger
  rw [abandon_recorded each, ite_self]
  exact each

/-- After the record of a failure, no attempt is under way. -/
theorem settle_matches {tried : List Tried} {ledger : List Billed}
    (each : List.Forall₂ Recorded tried ledger) (stream : Stream) (a : Attempt)
    (err : ProviderError) (emitted : Bool) (now draw : ℚ) (breakers : Breakers) :
    Matches ((stream.settle gateway a err emitted now draw breakers).notes.foldl observe tried) ledger
      (stream.settle gateway a err emitted now draw breakers).state.point ∧
      (stream.settle gateway a err emitted now draw breakers).state.point ≠ .ended true := by
  unfold Stream.settle
  by_cases handed : emitted = true
  · rw [if_pos handed]
    exact ⟨each, nofun⟩
  rw [if_neg handed]
  by_cases bad : err.kind = .badRequest
  · rw [if_pos bad]
    exact ⟨each, nofun⟩
  rw [if_neg bad]
  cases shouldRetry gateway err a.spec a.n (breakers a.spec.id) stream.deadline now draw with
  | none => exact ⟨each, nofun⟩
  | some delay => exact ⟨each, nofun⟩

/-- A stream that is over stays as it is. -/
theorem ended_step {s : StreamBilling} {aborted : Bool} (here : s.stream.point = .ended aborted)
    (v : StreamVisit) :
    (s.step gateway blocked prices messages v).tried = s.tried ∧
      (s.step gateway blocked prices messages v).ledger = s.ledger ∧
      (s.step gateway blocked prices messages v).stream.point = .ended aborted := by
  have resumed : s.stream.resume gateway blocked v.answer v.now v.breakers =
      { state := s.stream, breakers := v.breakers } := by
    unfold Stream.resume Stream.proceed
    rw [here]
    cases v.answer <;> rfl
  have closing : s.closing gateway prices messages v = none := by
    unfold StreamBilling.closing Stream.closes
    rw [here]
    cases v.answer <;> rfl
  refine ⟨?_, step_ledger_of_none closing, ?_⟩
  · unfold step
    rw [resumed]
    refine if_neg ?_
    rintro ⟨before, after⟩
    exact before after
  · show (s.stream.resume gateway blocked v.answer v.now v.breakers).state.point = _
    rw [resumed]
    exact here

/-- **What a harmless step does to attempts and records.** -/
theorem matches_step {s : StreamBilling} {v : StreamVisit} (harmless : s.Harmless v)
    (before : Matches s.tried s.ledger s.stream.point) :
    Matches (s.step gateway blocked prices messages v).tried
      (s.step gateway blocked prices messages v).ledger
      (s.step gateway blocked prices messages v).stream.point := by
  unfold Harmless at harmless
  cases here : s.stream.point with
  | choosing =>
      rw [here] at before
      exact matches_choosing here before v
  | opening a timeout =>
      rw [here] at before harmless
      cases answered : v.answer with
      | proceed arrival draw =>
          unfold step hands closing Stream.closes Stream.resume Stream.proceed
          rw [here, answered]
          cases arrival with
          | item item =>
              cases item with
              | delta text => exact before
              | finish reason =>
                  obtain ⟨others, shape, each⟩ := before
                  refine ⟨others, ?_, each⟩
                  show settled .finished s.tried = _
                  rw [shape]
                  rfl
          | exhausted => exact before.recorded (failed_recorded a none _ v.now _)
          | error err => exact before.recorded (failed_recorded a none err v.now _)
      | raised =>
          rw [answered] at harmless
          exact harmless.elim
      | cancelled =>
          unfold step hands closing Stream.closes Stream.resume
          rw [here, answered]
          exact before.recorded ⟨rfl, rfl, .head _⟩
  | announced a ttft item =>
      rw [here] at before harmless
      cases answered : v.answer with
      | proceed arrival draw =>
          unfold step hands closing Stream.closes Stream.resume Stream.proceed
          rw [here, answered]
          cases item with
          | delta text => exact before
          | finish reason =>
              obtain ⟨others, shape, each⟩ := before
              show List.Forall₂ Recorded s.tried _
              rw [shape]
              exact .cons ⟨rfl, rfl, .head _⟩ each
      | raised =>
          rw [answered] at harmless
          cases item <;> exact harmless.elim
      | cancelled =>
          rw [answered] at harmless
          cases item with
          | delta text =>
              unfold step hands closing Stream.closes Stream.resume
              rw [here, answered]
              exact before.recorded ⟨rfl, rfl, .head _⟩
          | finish reason => exact harmless.elim
  | passing a ttft =>
      rw [here] at before harmless
      cases answered : v.answer with
      | proceed arrival draw =>
          unfold step hands closing Stream.closes Stream.resume Stream.proceed
          rw [here, answered]
          dsimp only
          split
          · exact before.recorded (failed_recorded a (some ttft) _ v.now _)
          · exact before
      | raised =>
          rw [answered] at harmless
          exact harmless.elim
      | cancelled =>
          unfold step hands closing Stream.closes Stream.resume
          rw [here, answered]
          exact before.recorded ⟨rfl, rfl, .head _⟩
  | waiting a ttft since idle =>
      rw [here] at before harmless
      cases answered : v.answer with
      | proceed arrival draw =>
          unfold step hands closing Stream.closes Stream.resume Stream.proceed
          rw [here, answered]
          cases arrival with
          | item item =>
              cases item with
              | delta text => exact before
              | finish reason => exact before.recorded ⟨rfl, rfl, .head _⟩
          | exhausted => exact before.recorded (failed_recorded a (some ttft) _ v.now _)
          | error err => exact before.recorded (failed_recorded a (some ttft) err v.now _)
      | raised =>
          rw [answered] at harmless
          exact harmless.elim
      | cancelled =>
          unfold step hands closing Stream.closes Stream.resume
          rw [here, answered]
          exact before.recorded ⟨rfl, rfl, .head _⟩
  | completing a ttft reason =>
      rw [here] at before harmless
      have each : List.Forall₂ Recorded s.tried s.ledger := before
      cases answered : v.answer with
      | proceed arrival draw =>
          unfold step hands closing Stream.closes Stream.resume Stream.proceed
          rw [here, answered]
          exact each
      | raised =>
          unfold step hands closing Stream.closes Stream.resume Stream.proceed
          rw [here, answered]
          exact each
      | cancelled =>
          rw [answered] at harmless
          exact harmless.elim
  | reporting a err emitted =>
      rw [here] at before
      have each : List.Forall₂ Recorded s.tried s.ledger := before
      have closing : s.closing gateway prices messages v = none := by
        unfold StreamBilling.closing Stream.closes
        rw [here]
        cases v.answer <;> rfl
      have settles : ∀ draw, s.stream.resume gateway blocked v.answer v.now v.breakers =
          s.stream.settle gateway a err emitted v.now draw v.breakers →
          Matches (s.step gateway blocked prices messages v).tried
            (s.step gateway blocked prices messages v).ledger
            (s.step gateway blocked prices messages v).stream.point := by
        intro draw resumed
        have next := @settle_matches gateway _ _ each s.stream a err emitted v.now draw v.breakers
        rw [step_ledger_of_none closing, step_tried_of_live (by rw [resumed]; exact next.2)]
        show Matches _ _ (s.stream.resume gateway blocked v.answer v.now v.breakers).state.point
        rw [resumed]
        exact next.1
      cases answered : v.answer with
      | proceed arrival draw =>
          apply settles draw
          unfold Stream.resume Stream.proceed
          rw [here, answered]
      | raised =>
          apply settles 0
          unfold Stream.resume Stream.proceed
          rw [here, answered]
      | cancelled => exact matches_left each (by unfold Stream.resume; rw [here, answered]) closing
  | sleeping spec n until_ =>
      rw [here] at before
      have closing : s.closing gateway prices messages v = none := by
        unfold StreamBilling.closing Stream.closes
        rw [here]
        cases v.answer <;> rfl
      cases answered : v.answer with
      | proceed arrival draw =>
          unfold step hands StreamBilling.closing Stream.closes Stream.resume Stream.proceed
          rw [here, answered]
          exact before
      | raised => exact matches_left before (by unfold Stream.resume; rw [here, answered]) closing
      | cancelled => exact matches_left before (by unfold Stream.resume; rw [here, answered]) closing
  | closing again =>
      rw [here] at before
      have closing : s.closing gateway prices messages v = none := by
        unfold StreamBilling.closing Stream.closes
        rw [here]
        cases v.answer <;> rfl
      cases answered : v.answer with
      | proceed arrival draw =>
          cases again with
          | none =>
              unfold step hands StreamBilling.closing Stream.closes Stream.resume Stream.proceed
              rw [here, answered]
              exact before
          | some next =>
              have begun := @attempt_matches gateway _ _ before s.stream next.1 next.2 v.now
              have resumed : s.stream.resume gateway blocked v.answer v.now v.breakers =
                  { state := (s.stream.attempt gateway next.1 next.2 v.now).1, breakers := v.breakers,
                    notes := (s.stream.attempt gateway next.1 next.2 v.now).2 } := by
                unfold Stream.resume Stream.proceed
                rw [here, answered]
              rw [step_ledger_of_none closing, step_tried_of_live (by rw [resumed]; exact begun.2)]
              show Matches _ _ (s.stream.resume gateway blocked v.answer v.now v.breakers).state.point
              rw [resumed]
              exact begun.1
      | raised => exact matches_left before (by unfold Stream.resume; rw [here, answered]) closing
      | cancelled => exact matches_left before (by unfold Stream.resume; rw [here, answered]) closing
  | finished =>
      rw [here] at before harmless
      cases answered : v.answer with
      | proceed arrival draw =>
          unfold step hands closing Stream.closes Stream.resume Stream.proceed
          rw [here, answered]
          exact before
      | raised =>
          refine matches_left before (by unfold Stream.resume; rw [here, answered]) ?_
          unfold closing Stream.closes
          rw [here, answered]
          rfl
      | cancelled =>
          rw [answered] at harmless
          refine matches_left before (by unfold Stream.resume; rw [here, answered]) ?_
          unfold closing Stream.closes
          rw [here, answered]
          dsimp only
          rw [harmless]
          rfl
  | ended aborted =>
      rw [here] at before
      obtain ⟨tried, ledger, point⟩ := ended_step here v
      rw [tried, ledger, point]
      exact before

/-- Over with a record missing, made twice or wrong. -/
def Botched (s : StreamBilling) : Prop := (∃ aborted, s.stream.point = .ended aborted) ∧ ¬s.OneEach

/-- **Any other step ends the stream with a record missing, made twice or wrong.** -/
theorem botched_step {s : StreamBilling} {v : StreamVisit} (harm : ¬s.Harmless v)
    (before : Matches s.tried s.ledger s.stream.point) :
    (s.step gateway blocked prices messages v).Botched := by
  unfold Harmless at harm
  cases here : s.stream.point with
  | choosing | reporting _ _ _ | sleeping _ _ _ | closing _ | ended _ =>
      rw [here] at harm
      cases v.answer <;> exact absurd trivial harm
  | opening a timeout =>
      rw [here] at before harm
      cases answered : v.answer with
      | proceed arrival draw | cancelled =>
          rw [answered] at harm
          exact absurd trivial harm
      | raised =>
          unfold Botched OneEach step hands closing Stream.closes Stream.resume
          rw [here, answered]
          exact ⟨⟨true, rfl⟩, before.unrecorded⟩
  | announced a ttft item =>
      rw [here] at before harm
      cases answered : v.answer with
      | proceed arrival draw =>
          rw [answered] at harm
          cases item <;> exact absurd trivial harm
      | raised =>
          unfold Botched OneEach step hands closing Stream.closes Stream.resume
          rw [here, answered]
          refine ⟨⟨true, rfl⟩, ?_⟩
          cases item with
          | delta text => exact UnderWay.unrecorded before
          | finish reason => exact UnderWay.unrecorded before
      | cancelled =>
          rw [answered] at harm
          cases item with
          | delta text => exact absurd trivial harm
          | finish reason =>
              unfold Botched OneEach step hands closing Stream.closes Stream.resume
              rw [here, answered]
              refine ⟨⟨true, rfl⟩, ?_⟩
              obtain ⟨others, shape, each⟩ := before
              show ¬List.Forall₂ Recorded (settled .stopped s.tried) _
              rw [shape]
              intro all
              cases all with
              | cons first rest => exact absurd (List.mem_singleton.mp first.2.2) nofun
  | passing a ttft =>
      rw [here] at before harm
      cases answered : v.answer with
      | proceed arrival draw | cancelled =>
          rw [answered] at harm
          exact absurd trivial harm
      | raised =>
          unfold Botched OneEach step hands closing Stream.closes Stream.resume
          rw [here, answered]
          exact ⟨⟨true, rfl⟩, before.unrecorded⟩
  | waiting a ttft since idle =>
      rw [here] at before harm
      cases answered : v.answer with
      | proceed arrival draw | cancelled =>
          rw [answered] at harm
          exact absurd trivial harm
      | raised =>
          unfold Botched OneEach step hands closing Stream.closes Stream.resume
          rw [here, answered]
          exact ⟨⟨true, rfl⟩, before.unrecorded⟩
  | completing a ttft reason =>
      rw [here] at before harm
      cases answered : v.answer with
      | proceed arrival draw | raised =>
          rw [answered] at harm
          exact absurd trivial harm
      | cancelled =>
          unfold Botched OneEach step hands closing Stream.closes Stream.resume
          rw [here, answered]
          refine ⟨⟨true, rfl⟩, overrecorded _ before ?_⟩
          exact congrArg List.length (abandon_recorded before .cancelled)
  | finished =>
      rw [here] at before harm
      cases answered : v.answer with
      | proceed arrival draw | raised =>
          rw [answered] at harm
          exact absurd trivial harm
      | cancelled =>
          rw [answered] at harm
          obtain ⟨c, kept⟩ := Option.ne_none_iff_exists'.mp harm
          unfold Botched OneEach step hands closing Stream.closes Stream.resume
          rw [here, answered]
          dsimp only
          rw [kept]
          refine ⟨⟨true, rfl⟩, overrecorded _ before ?_⟩
          exact congrArg List.length (abandon_recorded before .cancelled)

/-- **Every attempt of a stream has its one record if and only if every step is harmless.** -/
theorem oneEach_iff {route : String} {targets : List ModelSpec} {deadline requested : ℚ}
    {visits : List StreamVisit} {s : StreamBilling}
    (ran : Run (StepOf (step gateway blocked prices messages))
      (start route targets deadline requested) visits s)
    {aborted : Bool} (ceased : s.stream.point = .ended aborted) :
    s.OneEach ↔
      Run (Guarded Harmless (StepOf (step gateway blocked prices messages)))
        (start route targets deadline requested) visits s := by
  have apart : ∀ s : StreamBilling, Matches s.tried s.ledger s.stream.point → ¬s.Botched := by
    rintro s each ⟨⟨aborted, there⟩, unmatched⟩
    rw [there] at each
    exact unmatched each
  have whole : ¬s.Botched ↔ Run (Guarded Harmless (StepOf (step gateway blocked prices messages)))
      (start route targets deadline requested) visits s := by
    refine ran.ends_well_iff ?_ ?_ ?_ apart List.Forall₂.nil
    · rintro s v _ rfl harmless before
      exact matches_step harmless before
    · rintro s v _ rfl harm before
      exact botched_step harm before
    · rintro s v _ rfl ⟨⟨aborted, there⟩, unmatched⟩
      obtain ⟨tried, ledger, point⟩ := @ended_step gateway blocked prices messages s aborted there v
      refine ⟨⟨aborted, point⟩, ?_⟩
      unfold OneEach
      rw [tried, ledger]
      exact unmatched
  refine Iff.trans ?_ whole
  constructor
  · rintro each ⟨-, unmatched⟩
    exact unmatched each
  · intro well
    by_contra unmatched
    exact well ⟨⟨aborted, ceased⟩, unmatched⟩

end StreamBilling

end Streams

/-! ## The ledger -/

/-- `usage_totals` of the records of a call -/
structure UsageTotals where
  modelCalls : Nat
  promptTokens : Nat
  completionTokens : Nat
  costUsd : ℚ
deriving DecidableEq

def usageTotals (records : List Billed) : UsageTotals where
  modelCalls := records.countP (!·.skipped)
  promptTokens := (records.map fun b => (b.usage.map Usage.promptTokens).getD 0).sum
  completionTokens := (records.map fun b => (b.usage.map Usage.completionTokens).getD 0).sum
  costUsd := (records.map Billed.costUsd).sum

/-- Records of attempts all count as calls. -/
theorem modelCalls_of_recorded {tried : List Tried} {ledger : List Billed}
    (each : List.Forall₂ StreamBilling.Recorded tried ledger) :
    (usageTotals ledger).modelCalls = tried.length := by
  have whole : ∀ b ∈ ledger, (!b.skipped) = true := by
    intro b mem
    induction each with
    | nil => cases mem
    | @cons t first tried ledger matched others ih =>
        rcases List.mem_cons.mp mem with rfl | later
        · obtain ⟨-, -, outcome⟩ := matched
          unfold Billed.skipped
          cases fate : t.fate <;> rw [fate] at outcome <;> simp [Fate.outcomes] at outcome ⊢
          · rw [outcome]
            exact nofun
          · rw [outcome]
            exact nofun
          · rcases outcome with outcome | outcome <;> rw [outcome] <;> exact nofun
        · exact ih later
  exact (List.countP_eq_length.mpr whole).trans each.length_eq.symm

/-- **A call or a stream that runs to its end hands exactly the attempts it reports to the recorder,
if and only if it passes no target over.** -/
theorem ledger_is_trail_iff {ρ : Type} {gateway : LLMGateway} {prices : ModelSpec → Prices}
    {kind : ModelKind} {blocked : List String} {usageOf : ρ → Usage} {targets : List ModelSpec}
    {deadline : ℚ} {visits : List (Visit ρ)} {s : Billing ρ}
    {kept : List String} {messages : List ChatMessage} {route : String} {chain : List ModelSpec}
    {until_ requested : ℚ} {streamed : List StreamVisit} {t : StreamBilling}
    (called : Run (StepOf (Billing.step gateway kind blocked prices usageOf))
      (Billing.start targets deadline) visits s)
    (ceased : s.ended = true)
    (streams : Run (StepOf (StreamBilling.step gateway kept prices messages))
      (StreamBilling.start route chain until_ requested) streamed t)
    (consumed : t.stream.point = .ended false) :
    (s.Accounted ↔
      Run (Guarded (Billing.TurnsAdmitted gateway blocked)
        (StepOf (Billing.step gateway kind blocked prices usageOf)))
        (Billing.start targets deadline) visits s) ∧
    (t.Accounted ↔
      Run (Guarded (StreamBilling.TurnsAdmitted gateway kept)
        (StepOf (StreamBilling.step gateway kept prices messages)))
        (StreamBilling.start route chain until_ requested) streamed t) :=
  ⟨accounted_iff called ceased, StreamBilling.accounted_iff streams consumed⟩

/-- **Every streamed attempt has its one record, and counts once, if and only if the consumer does not
stop once the provider's stream is over and only provider errors come out of it.** -/
theorem one_record_each_iff {gateway : LLMGateway} {blocked : List String}
    {prices : ModelSpec → Prices} {messages : List ChatMessage} {route : String}
    {targets : List ModelSpec} {deadline requested : ℚ} {visits : List StreamVisit}
    {s : StreamBilling} {aborted : Bool}
    (ran : Run (StepOf (StreamBilling.step gateway blocked prices messages))
      (StreamBilling.start route targets deadline requested) visits s)
    (ceased : s.stream.point = .ended aborted) :
    (s.OneEach ↔
      Run (Guarded StreamBilling.Harmless
        (StepOf (StreamBilling.step gateway blocked prices messages)))
        (StreamBilling.start route targets deadline requested) visits s) ∧
    (s.OneEach → (usageTotals s.ledger).modelCalls = s.tried.length) :=
  ⟨StreamBilling.oneEach_iff ran ceased, modelCalls_of_recorded⟩

/-! ## Poles -/

section Poles

def polePrices : ModelSpec → Prices := fun _ => { inputUsd := 1, outputUsd := 2 }

def poleVisit : Visit Unit where
  answer := .proceed (.result ()) 0
  now := 0
  breakers := poleBreakers

/-- A call served by the only target it may use. -/
def poleBilling (blocked : List String) (targets : List ModelSpec) : Billing Unit :=
  [poleVisit, poleVisit, poleVisit].foldl
    (Billing.step poleGateway .chat blocked polePrices fun _ => { promptTokens := 4 })
    (Billing.start targets 120)

/-- The first target may not see the data: it is reported and not recorded. -/
theorem skip_unrecorded :
    ∃ s : Billing Unit, Run (StepOf (Billing.step poleGateway .chat ["cloud/large"] polePrices
        fun _ => { promptTokens := 4 })) (Billing.start [poleCloudModel, poleLocal] 120)
        [poleVisit, poleVisit, poleVisit] s ∧ s.ended = true ∧
      s.trail.reverse.map (fun b => b.record.outcome) = [.skipped, .success] ∧
      s.ledger.map (fun b => b.record.outcome) = [.success] ∧ ¬s.Accounted := by
  refine ⟨poleBilling ["cloud/large"] [poleCloudModel, poleLocal], Run.stepOf_iff.mpr rfl, ?_, ?_, ?_, ?_⟩
  · decide +kernel
  · decide +kernel
  · decide +kernel
  · intro accounted
    have lengths : (poleBilling ["cloud/large"] [poleCloudModel, poleLocal]).ledger.length = 1 ∧
        (poleBilling ["cloud/large"] [poleCloudModel, poleLocal]).trail.length = 2 := by
      decide +kernel
    rw [accounted.recorded] at lengths
    omega

def poleStreamVisit (answer : StreamAnswer) : StreamVisit where
  answer
  usage := { promptTokens := 4, completionTokens := 3 }
  now := 0
  breakers := poleBreakers

/-- A delta, then the end; the last event is handed on. -/
def poleArrivals : List StreamVisit :=
  [.exhausted, .item (.delta "Hello"), .exhausted, .exhausted, .item (.finish none), .exhausted].map
    fun arrival => poleStreamVisit (.proceed arrival 0)

def poleStreamBilling (last : StreamAnswer) : StreamBilling :=
  (poleArrivals ++ [poleStreamVisit last]).foldl
    (StreamBilling.step poleGateway [] polePrices [])
    (StreamBilling.start "both" [poleLocal] 300 0)

/-- The consumer stops at the last event: the attempt is recorded twice and its tokens counted
twice. -/
theorem recorded_twice :
    ∃ s : StreamBilling, Run (StepOf (StreamBilling.step poleGateway [] polePrices []))
        (StreamBilling.start "both" [poleLocal] 300 0)
        (poleArrivals ++ [poleStreamVisit .cancelled]) s ∧ s.stream.point = .ended true ∧
      s.tried = [{ spec := poleLocal, n := 1, fate := .finished }] ∧
      s.ledger.map (fun b => b.record.outcome) = [.cancelled, .success] ∧
      (usageTotals s.ledger).completionTokens = 5 ∧ ¬s.OneEach := by
  refine ⟨poleStreamBilling .cancelled, Run.stepOf_iff.mpr rfl, ?_, ?_, ?_, ?_, ?_⟩
  · decide +kernel
  · decide +kernel
  · decide +kernel
  · decide +kernel
  · intro each
    have lengths : (poleStreamBilling .cancelled).tried.length = 1 ∧
        (poleStreamBilling .cancelled).ledger.length = 2 := by
      decide +kernel
    have same := List.Forall₂.length_eq each
    omega

theorem ledger_is_trail_iff_pole :
    ((poleBilling [] [poleLocal]).Accounted ↔
      Run (Guarded (Billing.TurnsAdmitted poleGateway [])
        (StepOf (Billing.step poleGateway .chat [] polePrices fun _ => { promptTokens := 4 })))
        (Billing.start [poleLocal] 120) [poleVisit, poleVisit, poleVisit]
        (poleBilling [] [poleLocal])) ∧
    ((poleStreamBilling (.proceed .exhausted 0)).Accounted ↔
      Run (Guarded (StreamBilling.TurnsAdmitted poleGateway [])
        (StepOf (StreamBilling.step poleGateway [] polePrices [])))
        (StreamBilling.start "both" [poleLocal] 300 0)
        (poleArrivals ++ [poleStreamVisit (.proceed .exhausted 0)])
        (poleStreamBilling (.proceed .exhausted 0))) := by
  have called : Run (StepOf (Billing.step poleGateway .chat [] polePrices
      fun _ => { promptTokens := 4 })) (Billing.start [poleLocal] 120)
      [poleVisit, poleVisit, poleVisit] (poleBilling [] [poleLocal]) := Run.stepOf_iff.mpr rfl
  have streamed : Run (StepOf (StreamBilling.step poleGateway [] polePrices []))
      (StreamBilling.start "both" [poleLocal] 300 0)
      (poleArrivals ++ [poleStreamVisit (.proceed .exhausted 0)])
      (poleStreamBilling (.proceed .exhausted 0)) := Run.stepOf_iff.mpr rfl
  exact ledger_is_trail_iff called (by decide +kernel) streamed (by decide +kernel)

theorem one_record_each_iff_pole :
    Run (Guarded StreamBilling.Harmless (StepOf (StreamBilling.step poleGateway [] polePrices [])))
        (StreamBilling.start "both" [poleLocal] 300 0)
        (poleArrivals ++ [poleStreamVisit (.proceed .exhausted 0)])
        (poleStreamBilling (.proceed .exhausted 0)) ∧
      (usageTotals (poleStreamBilling (.proceed .exhausted 0)).ledger).modelCalls =
        (poleStreamBilling (.proceed .exhausted 0)).tried.length := by
  have ran : Run (StepOf (StreamBilling.step poleGateway [] polePrices []))
      (StreamBilling.start "both" [poleLocal] 300 0)
      (poleArrivals ++ [poleStreamVisit (.proceed .exhausted 0)])
      (poleStreamBilling (.proceed .exhausted 0)) := Run.stepOf_iff.mpr rfl
  have ceased : (poleStreamBilling (.proceed .exhausted 0)).stream.point = .ended false := by
    decide +kernel
  have each : (poleStreamBilling (.proceed .exhausted 0)).OneEach := by
    unfold StreamBilling.OneEach
    decide +kernel
  have both := one_record_each_iff ran ceased
  exact ⟨both.1.mp each, both.2 each⟩

end Poles

end OpsAssist.Gateway
