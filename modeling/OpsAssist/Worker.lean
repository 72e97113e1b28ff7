/-
# OpsAssist.Worker -- a job's row and its message

The message of an ingestion job is delivered until an attempt returns or is given up; the job's
row is updated before, inside and after each attempt, in transactions of their own.  Each of
these updates may raise, with or without having taken effect.

`status_tells_fate_iff`: the row tells the message's fate all along if and only if the exceptions
come where the row still says, or already says, what becomes of the message.  Pole:
`dead_and_queued`.
-/
import OpsAssist.Api.Documents
import OpsAssist.Knowledge.Ingest

namespace OpsAssist.Worker

set_option autoImplicit false

open Theory
open Upload (JobStatus)

def MAX_RETRIES : Nat := 3

/-! ## Exceptions -/

inductive Severity where
  /-- one of `PERMANENT_ERRORS` -/
  | permanent
  | transient
  /-- a `BaseException` that is not an `Exception` -/
  | interrupt
deriving DecidableEq

structure Failure where
  severity : Severity
  /-- `type(exc).__name__` -/
  name : String
  /-- `str(exc)` -/
  text : String
deriving DecidableEq

/-- `isinstance(exc, PERMANENT_ERRORS)` -/
def Failure.permanent (exc : Failure) : Bool := exc.severity == .permanent

/-- `except Exception` takes it. -/
def Failure.caught (exc : Failure) : Bool := exc.severity != .interrupt

/-- `_should_retry` -/
def shouldRetry (retries : Nat) (exc : Failure) : Bool :=
  decide (retries < MAX_RETRIES) && !exc.permanent

/-! ## The row -/

/-- The columns the worker writes. -/
structure JobRow where
  status : JobStatus := .queued
  attempts : Nat := 0
  docKey : Option String := none
  version : Option Nat := none
  detail : Option String := none
deriving DecidableEq

/-- The row when an attempt begins. -/
def JobRow.begin_ (row : JobRow) (retries : Nat) : JobRow :=
  { row with status := .running, attempts := retries + 1 }

def failedStatus (retries : Nat) (exc : Failure) : JobStatus :=
  if exc.permanent then .failed else if MAX_RETRIES ≤ retries then .dead else .queued

/-- The row when an attempt has failed. -/
def JobRow.fail (row : JobRow) (retries : Nat) (exc : Failure) : JobRow :=
  { row with
    status := failedStatus retries exc
    detail := some (String.ofList ((exc.name ++ ": " ++ exc.text).toList.take 500)) }

/-- The row when the document is indexed, or was already. -/
def JobRow.finish (row : JobRow) (result : Ingest.IngestResult) : JobRow :=
  { row with
    status := if result.outcome = .indexed then .succeeded else .unchanged
    docKey := some result.docKey
    version := some result.version
    detail := some (toString result.chunks ++ " chunks") }

/-! ## The message -/

inductive Point where
  /-- in the queue, for its first attempt or for a retry -/
  | waiting
  | ingesting
  /-- in the `except` block -/
  | reporting (exc : Failure)
  /-- after the `try` block -/
  | storing (result : Ingest.IngestResult)
  | done
  | deadLettered
deriving DecidableEq

structure Delivery where
  row : JobRow := {}
  retries : Nat := 0
  point : Point := .waiting
deriving DecidableEq

/-- An update that raises, and whether it has taken effect before. -/
structure Fault where
  exc : Failure
  effect : Bool

inductive Act where
  /-- the next update of the row -/
  | update (fault : Option Fault)
  /-- `ingest_file` -/
  | ingest (outcome : Except Failure Ingest.IngestResult)

namespace Delivery

/-- The actor has raised: the message is queued again or dead-lettered. -/
def raise (d : Delivery) (exc : Failure) : Delivery :=
  if shouldRetry d.retries exc then { d with retries := d.retries + 1, point := .waiting }
  else { d with point := .deadLettered }

/-- `_update_job` -/
def updateJob (d : Delivery) (row : JobRow) (next : Delivery → Delivery) (fault : Option Fault) :
    Delivery :=
  match fault with
  | none => next { d with row }
  | some f => (if f.effect then { d with row } else d).raise f.exc

/-- `ingest_document`, from one point to the next. -/
def step (d : Delivery) (act : Act) : Option Delivery :=
  match d.point, act with
  | .waiting, .update fault =>
      some (d.updateJob (d.row.begin_ d.retries) ({ · with point := .ingesting }) fault)
  | .ingesting, .ingest (.ok result) => some { d with point := .storing result }
  | .ingesting, .ingest (.error exc) =>
      some (if exc.caught then { d with point := .reporting exc } else d.raise exc)
  | .reporting exc, .update fault =>
      some (d.updateJob (d.row.fail d.retries exc) (·.raise exc) fault)
  | .storing result, .update fault =>
      some (d.updateJob (d.row.finish result) ({ · with point := .done }) fault)
  | _, _ => none

end Delivery

/-! ## What the row tells -/

/-- What the status should be where the message is. -/
def Point.Tells (status : JobStatus) : Point → Prop
  | .waiting => status = .queued
  | .done => status = .succeeded ∨ status = .unchanged
  | .deadLettered => status = .failed ∨ status = .dead
  | _ => True

/-- **The job's status tells what has become of its message.** -/
def Delivery.Agrees (d : Delivery) : Prop := d.point.Tells d.row.status

/-- The exception comes where the row says what becomes of the message: before the first update
of an attempt that is retried, from `ingest_file`, or after a report that has taken effect and
foresaw the same. -/
def Delivery.harmless (d : Delivery) : Act → Bool
  | .update none => true
  | .update (some f) =>
      match d.point with
      | .waiting => !f.effect && shouldRetry d.retries f.exc
      | .reporting exc =>
          f.effect && shouldRetry d.retries f.exc == shouldRetry d.retries exc
      | _ => false
  | .ingest (.error exc) => exc.caught
  | .ingest (.ok _) => true

/-- While the actor runs the status says so. -/
def Delivery.Inv (d : Delivery) : Prop :=
  match d.point with
  | .ingesting | .reporting _ | .storing _ => d.row.status = .running
  | point => point.Tells d.row.status

theorem inv_agrees {d : Delivery} (inv : d.Inv) : d.Agrees := by
  unfold Delivery.Inv at inv
  unfold Delivery.Agrees
  cases point : d.point with
  | waiting => rwa [point] at inv
  | ingesting => trivial
  | reporting exc => trivial
  | storing result => trivial
  | done => rwa [point] at inv
  | deadLettered => rwa [point] at inv

/-! ## Raising -/

/-- **An actor that raises** is queued again or dead-lettered, and leaves the row. -/
theorem raise_cases (d : Delivery) (exc : Failure) :
    (shouldRetry d.retries exc = true ∧ (d.raise exc).point = .waiting ∧
      (d.raise exc).row = d.row) ∨
    (shouldRetry d.retries exc = false ∧ (d.raise exc).point = .deadLettered ∧
      (d.raise exc).row = d.row) := by
  unfold Delivery.raise
  by_cases again : shouldRetry d.retries exc = true
  · left
    rw [if_pos again]
    exact ⟨again, rfl, rfl⟩
  · right
    rw [if_neg again]
    exact ⟨Bool.eq_false_iff.mpr again, rfl, rfl⟩

/-- The status a report writes foresees whether the message is retried. -/
theorem failedStatus_retry {retries : Nat} {exc : Failure} (again : shouldRetry retries exc = true) :
    failedStatus retries exc = .queued := by
  unfold shouldRetry at again
  rw [Bool.and_eq_true, decide_eq_true_iff, Bool.not_eq_true'] at again
  unfold failedStatus
  rw [again.2, if_neg Bool.false_ne_true, if_neg (not_le.mpr again.1)]

theorem failedStatus_final {retries : Nat} {exc : Failure}
    (final : shouldRetry retries exc = false) :
    failedStatus retries exc = .failed ∨ failedStatus retries exc = .dead := by
  unfold failedStatus
  by_cases permanent : exc.permanent = true
  · left
    rw [if_pos permanent]
  · right
    rw [if_neg permanent]
    apply if_pos
    by_contra early
    rw [Bool.eq_false_iff] at final
    apply final
    unfold shouldRetry
    rw [Bool.and_eq_true, decide_eq_true_iff, Bool.not_eq_true']
    exact ⟨not_le.mp early, Bool.eq_false_iff.mpr permanent⟩

/-- The row tells the fate of a message that was raised on when its status foresaw it. -/
theorem raise_inv {d : Delivery} {exc : Failure} (foreseen : Failure)
    (same : shouldRetry d.retries exc = shouldRetry d.retries foreseen)
    (told : d.row.status = failedStatus d.retries foreseen) : (d.raise exc).Inv := by
  unfold Delivery.Inv
  rcases raise_cases d exc with ⟨again, point, row⟩ | ⟨final, point, row⟩
  · rw [point, row]
    show d.row.status = .queued
    rw [told]
    exact failedStatus_retry (same.symm.trans again)
  · rw [point, row]
    show d.row.status = .failed ∨ d.row.status = .dead
    rw [told]
    exact failedStatus_final (same.symm.trans final)

/-- A status from the middle of an attempt tells nothing of what becomes of the message. -/
theorem raise_disagrees {d : Delivery} {exc : Failure}
    (midway : d.row.status = .running ∨ d.row.status = .succeeded ∨ d.row.status = .unchanged) :
    ¬(d.raise exc).Agrees := by
  unfold Delivery.Agrees
  rcases raise_cases d exc with ⟨-, point, row⟩ | ⟨-, point, row⟩
  · rw [point, row]
    show ¬d.row.status = .queued
    rcases midway with is | is | is <;> rw [is] <;> decide
  · rw [point, row]
    show ¬(d.row.status = .failed ∨ d.row.status = .dead)
    rcases midway with is | is | is <;> rw [is] <;> decide

/-- A status that foresaw the other thing tells the wrong fate. -/
theorem raise_unforeseen {d : Delivery} {exc : Failure} (foreseen : Failure)
    (differs : shouldRetry d.retries exc ≠ shouldRetry d.retries foreseen)
    (told : d.row.status = failedStatus d.retries foreseen) : ¬(d.raise exc).Agrees := by
  unfold Delivery.Agrees
  rcases raise_cases d exc with ⟨again, point, row⟩ | ⟨final, point, row⟩
  · have ended : shouldRetry d.retries foreseen = false := by
      rw [again] at differs
      exact Bool.eq_false_iff.mpr differs.symm
    rw [point, row]
    show ¬d.row.status = .queued
    rw [told]
    rcases failedStatus_final ended with is | is <;> rw [is] <;> decide
  · have retried : shouldRetry d.retries foreseen = true := by
      rw [final] at differs
      exact Bool.not_eq_false _ ▸ differs.symm
    rw [point, row]
    show ¬(d.row.status = .failed ∨ d.row.status = .dead)
    rw [told, failedStatus_retry retried]
    decide

/-! ## Steps and runs -/

/-- **A step with no exception, or a harmless one, keeps the row in agreement.** -/
theorem step_inv {d d' : Delivery} {act : Act} (step : d.step act = some d')
    (harmless : d.harmless act = true) (inv : d.Inv) : d'.Inv := by
  unfold Delivery.Inv at inv
  unfold Delivery.harmless at harmless
  unfold Delivery.step at step
  cases point : d.point with
  | waiting =>
      rw [point] at inv step harmless
      cases act with
      | ingest outcome => cases step
      | update fault =>
          cases step
          cases fault with
          | none => exact rfl
          | some f =>
              dsimp only at harmless
              rw [Bool.and_eq_true, Bool.not_eq_true'] at harmless
              obtain ⟨untouched, again⟩ := harmless
              unfold Delivery.updateJob
              dsimp only
              rw [untouched, if_neg Bool.false_ne_true]
              rcases raise_cases d f.exc with ⟨-, there, row⟩ | ⟨final, -, -⟩
              · unfold Delivery.Inv
                rw [there, row]
                exact inv
              · rw [again] at final
                cases final
  | ingesting =>
      rw [point] at inv step
      cases act with
      | update fault => cases step
      | ingest outcome =>
          cases outcome with
          | ok result =>
              cases step
              exact inv
          | error exc =>
              have caught : exc.caught = true := harmless
              dsimp only at step
              rw [if_pos caught] at step
              cases step
              exact inv
  | reporting exc =>
      rw [point] at inv step harmless
      cases act with
      | ingest outcome => cases step
      | update fault =>
          cases step
          cases fault with
          | none => exact raise_inv exc rfl rfl
          | some f =>
              dsimp only at harmless
              rw [Bool.and_eq_true, beq_iff_eq] at harmless
              unfold Delivery.updateJob
              dsimp only
              rw [if_pos harmless.1]
              exact raise_inv exc harmless.2 rfl
  | storing result =>
      rw [point] at inv step harmless
      cases act with
      | ingest outcome => cases step
      | update fault =>
          cases step
          cases fault with
          | some f => cases harmless
          | none =>
              show (if result.outcome = .indexed then JobStatus.succeeded else .unchanged) = _ ∨
                (if result.outcome = .indexed then JobStatus.succeeded else .unchanged) = _
              split
              · exact .inl rfl
              · exact .inr rfl
  | done =>
      rw [point] at step
      cases act <;> cases step
  | deadLettered =>
      rw [point] at step
      cases act <;> cases step

/-- **Any other exception leaves the row telling the wrong fate.** -/
theorem step_disagrees {d d' : Delivery} {act : Act} (step : d.step act = some d')
    (harmful : ¬d.harmless act = true) (inv : d.Inv) : ¬d'.Agrees := by
  unfold Delivery.Inv at inv
  unfold Delivery.harmless at harmful
  unfold Delivery.step at step
  cases point : d.point with
  | waiting =>
      rw [point] at inv step harmful
      cases act with
      | ingest outcome => cases step
      | update fault =>
          cases step
          cases fault with
          | none => exact absurd rfl harmful
          | some f =>
              unfold Delivery.updateJob
              dsimp only at harmful ⊢
              cases effect : f.effect with
              | true =>
                  rw [if_pos rfl]
                  exact raise_disagrees (.inl rfl)
              | false =>
                  rw [if_neg Bool.false_ne_true]
                  rw [effect, Bool.not_false, Bool.true_and] at harmful
                  rcases raise_cases d f.exc with ⟨again, -, -⟩ | ⟨-, there, row⟩
                  · exact absurd again harmful
                  · have queued : d.row.status = .queued := inv
                    unfold Delivery.Agrees
                    rw [there, row]
                    show ¬(d.row.status = .failed ∨ d.row.status = .dead)
                    rw [queued]
                    decide
  | ingesting =>
      rw [point] at inv step
      cases act with
      | update fault => cases step
      | ingest outcome =>
          cases outcome with
          | ok result => exact absurd rfl harmful
          | error exc =>
              dsimp only at step
              rw [if_neg harmful] at step
              cases step
              exact raise_disagrees (.inl inv)
  | reporting exc =>
      rw [point] at inv step harmful
      cases act with
      | ingest outcome => cases step
      | update fault =>
          cases step
          cases fault with
          | none => exact absurd rfl harmful
          | some f =>
              unfold Delivery.updateJob
              dsimp only at harmful ⊢
              cases effect : f.effect with
              | false =>
                  rw [if_neg Bool.false_ne_true]
                  exact raise_disagrees (.inl inv)
              | true =>
                  rw [if_pos rfl]
                  rw [effect, Bool.true_and, beq_iff_eq] at harmful
                  exact raise_unforeseen exc harmful rfl
  | storing result =>
      rw [point] at inv step
      cases act with
      | ingest outcome => cases step
      | update fault =>
          cases step
          cases fault with
          | none => exact absurd rfl harmful
          | some f =>
              unfold Delivery.updateJob
              dsimp only
              apply raise_disagrees
              cases f.effect with
              | false =>
                  rw [if_neg Bool.false_ne_true]
                  exact .inl inv
              | true =>
                  rw [if_pos rfl]
                  right
                  show (if result.outcome = .indexed then JobStatus.succeeded else .unchanged) = _ ∨
                    (if result.outcome = .indexed then JobStatus.succeeded else .unchanged) = _
                  split
                  · exact .inl rfl
                  · exact .inr rfl
  | done =>
      rw [point] at step
      cases act <;> cases step
  | deadLettered =>
      rw [point] at step
      cases act <;> cases step

/-- **On every run the row tells the message's fate all along if and only if every exception is
harmless where it comes.** -/
theorem status_tells_fate_iff {acts : List Act} {d : Delivery}
    (run : Run (TryStepOf Delivery.step) {} acts d) :
    (∀ front back mid, acts = front ++ back → Run (TryStepOf Delivery.step) {} front mid →
      mid.Agrees) ↔
    Run (Guarded (fun d act => d.harmless act = true) (TryStepOf Delivery.step)) {} acts d := by
  have keeps : ∀ d act d', Delivery.step d act = some d' → d.harmless act = true → d.Inv →
      d'.Inv :=
    fun _ _ _ => step_inv
  have wrong : ∀ d act d', Delivery.step d act = some d' → ¬d.harmless act = true → d.Inv →
      ¬d'.Agrees :=
    fun _ _ _ => step_disagrees
  have first : Delivery.Inv {} := rfl
  exact Run.guarded_iff keeps (fun _ => inv_agrees) wrong run first

/-! ## Poles -/

/-- The database is gone. -/
def refused : Fault := ⟨⟨.transient, "OperationalError", "connection refused"⟩, false⟩

def outage : List Act := List.replicate 4 (.update (some refused))

/-- **A message can be dead-lettered while its job is still queued.** -/
theorem dead_and_queued : ∃ d : Delivery, Run (TryStepOf Delivery.step) {} outage d ∧
    d.point = .deadLettered ∧ d.row.status = .queued ∧ ¬d.Agrees := by
  let d : Delivery := ⟨{}, 3, .deadLettered⟩
  have told : ¬d.Agrees := by
    show ¬(JobStatus.queued = .failed ∨ JobStatus.queued = .dead)
    decide
  exact ⟨d, Run.of_foldlM rfl, rfl, rfl, told⟩

/-- A file that cannot be parsed, after an attempt that failed at its first update. -/
def unparseable : List Act :=
  [.update (some refused), .update none,
    .ingest (.error ⟨.permanent, "ParseError", "no title"⟩), .update none]

theorem status_tells_fate_iff_pole : ∃ d : Delivery,
    Run (TryStepOf Delivery.step) {} unparseable d ∧ d.row.status = .failed ∧ d.Agrees := by
  have fold : (unparseable.foldlM (checked Delivery.harmless Delivery.step) {}).any
      (fun d => d.row.status == .failed) = true := by
    decide +kernel
  obtain ⟨d, reached, failed⟩ := (Option.any_eq_true _ _).mp fold
  have guarded := Run.guarded_of_foldlM reached
  have run := guarded.unguarded
  exact ⟨d, run, beq_iff_eq.mp failed,
    (status_tells_fate_iff run).mpr guarded unparseable [] d (List.append_nil _).symm run⟩

end OpsAssist.Worker
