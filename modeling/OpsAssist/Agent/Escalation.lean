/-
# OpsAssist.Agent.Escalation -- what two calls for one answer come to

A first answer that shows a warning sign is asked for once more, on a larger model.  The
result is to show the second answer only if it is a cited one, and to account for every call,
whichever answer is shown.

`escalation_accounted_iff`: this holds of every run but those in which the second call fails
after it has made attempts: the first answer stands, and these attempts are in no trail.
Poles: `failed_escalation_untold`, `escalation_accounted_pole`.
-/
import OpsAssist.Agent.Answering

namespace OpsAssist.Answering

set_option autoImplicit false

open Gateway
open Anthropic (ChatParams)

/-- What came of a gateway call. -/
abbrev Came := Except GatewayFailure ChatOutcome

/-! ## The accounts of calls -/

def attemptsOf : Came → List AttemptRecord
  | .ok outcome => outcome.attempts
  | .error err => err.attempts

/-- The calls that succeeded. -/
def succeeded (calls : List Came) : List ChatOutcome := calls.filterMap Except.toOption

def totalUsage (outcomes : List ChatOutcome) : Usage where
  promptTokens := (outcomes.map (·.usage.promptTokens)).sum
  completionTokens := (outcomes.map (·.usage.completionTokens)).sum
  estimated := outcomes.any (·.usage.estimated)

def totalCost (outcomes : List ChatOutcome) : ℚ := (outcomes.map (·.costUsd)).sum

/-- The attempts a result reports: those of its error, if there is one. -/
def AnswerResult.reported (result : AnswerResult) : List AttemptRecord :=
  match result.error with
  | some err => err.attempts
  | none => result.attempts

/-- The result accounts for these calls. -/
structure AccountsFor (calls : List Came) (result : AnswerResult) : Prop where
  attempts : result.reported = calls.flatMap attemptsOf
  usage : result.usage = totalUsage (succeeded calls)
  cost : result.costUsd = totalCost (succeeded calls)

@[simp] theorem succeeded_nil : succeeded [] = [] := rfl

@[simp] theorem succeeded_ok (outcome : ChatOutcome) (rest : List Came) :
    succeeded (.ok outcome :: rest) = outcome :: succeeded rest := rfl

@[simp] theorem succeeded_error (err : GatewayFailure) (rest : List Came) :
    succeeded (.error err :: rest) = succeeded rest := rfl

@[simp] theorem totalUsage_nil : totalUsage [] = {} := rfl

@[simp] theorem totalUsage_one (outcome : ChatOutcome) : totalUsage [outcome] = outcome.usage := by
  simp [totalUsage]

@[simp] theorem totalCost_nil : totalCost [] = 0 := rfl

@[simp] theorem totalCost_one (outcome : ChatOutcome) : totalCost [outcome] = outcome.costUsd := by
  simp [totalCost]

@[simp] theorem withGapTicket_usage (result : AnswerResult) (question : String)
    (principal : Option Principal) :
    (withGapTicket result question principal).usage = result.usage := by
  unfold withGapTicket
  split <;> rfl

@[simp] theorem withGapTicket_cost (result : AnswerResult) (question : String)
    (principal : Option Principal) :
    (withGapTicket result question principal).costUsd = result.costUsd := by
  unfold withGapTicket
  split <;> rfl

@[simp] theorem withGapTicket_answer (result : AnswerResult) (question : String)
    (principal : Option Principal) :
    (withGapTicket result question principal).answer = result.answer := by
  unfold withGapTicket
  split <;> rfl

@[simp] theorem withGapTicket_error (result : AnswerResult) (question : String)
    (principal : Option Principal) :
    (withGapTicket result question principal).error = result.error := by
  unfold withGapTicket
  split <;> rfl

@[simp] theorem withGapTicket_reported (result : AnswerResult) (question : String)
    (principal : Option Principal) :
    (withGapTicket result question principal).reported = result.reported := by
  unfold withGapTicket
  split <;> rfl

@[simp] theorem resultOf_reported (answer : GroundedAnswer) (outcome : ChatOutcome) :
    (resultOf answer outcome).reported = outcome.attempts := rfl

/-! ## What is shown -/

section

variable (host : Host) (word : Char → Bool) (question : String) (history : List ChatMessage)
  (retrieval : RetrievalResult) (modelChoice : Option String) (allowEgress : Bool)
  (escalationModel : Option String) (principal : Option Principal) (params : ChatParams)
  (first second : Came)

/-- The first answer: a reply that abstains ends with what the caller can do. -/
def firstAnswer (outcome : ChatOutcome) : Option GroundedAnswer :=
  (finalize host word outcome.content retrieval.chunks).map fun made =>
    if made.abstained then clarifyingAbstention principal else made

/-- The result shows the second answer if that has citations and is no abstention, and the
first otherwise; it is an error when the first call failed. -/
def Shows (result : AnswerResult) : List Came → Prop
  | [.error err] => result.error = some err
  | [.ok outcome] | [.ok outcome, .error _] =>
      result.error = none ∧ firstAnswer host word retrieval principal outcome = some result.answer
  | [.ok outcome, .ok other] =>
      result.error = none ∧ ∃ again, finalize host word other.content retrieval.chunks = some again ∧
        if again.citations ≠ [] ∧ again.abstained = false then result.answer = again
        else firstAnswer host word retrieval principal outcome = some result.answer
  | _ => False

/-- Escalation is bounded, honest and fully accounted for. -/
structure Accounted (made : List GatewayCall × Option AnswerResult) : Prop where
  bounded : made.1.length ≤ 2
  same : ∃ messages, ∀ call ∈ made.1,
    call.messages = messages ∧ call.params = params ∧ call.allowEgress = allowEgress
  shows : ∀ result, made.2 = some result →
    Shows host word retrieval principal result ([first, second].take made.1.length)
  accounts : ∀ result, made.2 = some result →
    AccountsFor ([first, second].take made.1.length) result

/-- The first answer shows a warning sign, and there is a larger model to ask. -/
def Escalates : Prop :=
  ∃ outcome answer larger, first = .ok outcome ∧
    firstAnswer host word retrieval principal outcome = some answer ∧
    (escalationReason word answer true).isSome ∧
    largerModel escalationModel = some larger ∧ larger ≠ outcome.model.id

/-- The second call is made, and fails after it has made attempts. -/
def Untold : Prop :=
  Escalates host word retrieval escalationModel principal first ∧
    ∃ err, second = .error err ∧ err.attempts ≠ []

end

section

variable {host : Host} {word : Char → Bool} {question : String} {history : List ChatMessage}
  {retrieval : RetrievalResult} {modelChoice : Option String} {allowEgress : Bool}
  {escalationModel : Option String} {principal : Option Principal} {params : ChatParams}
  {first second : Came}

/-- The calls of a turn, as many as are made. -/
def callsFor (question : String) (history : List ChatMessage) (retrieval : RetrievalResult)
    (allowEgress : Bool) (params : ChatParams) (choices : List (Option String)) :
    List GatewayCall :=
  choices.map fun modelChoice => {
    modelChoice, allowEgress, params
    messages := buildMessages question retrieval.chunks history (0 < retrieval.admittedByReview) }

/-- The ways a turn with sources can go. -/
inductive Went (host : Host) (word : Char → Bool) (retrieval : RetrievalResult)
    (escalationModel : Option String) (principal : Option Principal) :
    Came → Came → Nat → Option AnswerResult → Prop
  | failed (err : GatewayFailure) (second : Came) :
      Went host word retrieval escalationModel principal (.error err) second 1
        (some { answer := abstention, error := some err })
  | raised (outcome : ChatOutcome) (second : Came)
      (raises : firstAnswer host word retrieval principal outcome = none) :
      Went host word retrieval escalationModel principal (.ok outcome) second 1 none
  | once (outcome : ChatOutcome) (second : Came) (answer : GroundedAnswer) (question : String)
      (made : firstAnswer host word retrieval principal outcome = some answer)
      (enough : ¬Escalates host word retrieval escalationModel principal (.ok outcome)) :
      Went host word retrieval escalationModel principal (.ok outcome) second 1
        (some (withGapTicket (resultOf answer outcome) question principal))
  | unavailable (outcome : ChatOutcome) (err : GatewayFailure) (answer : GroundedAnswer)
      (escalation : Escalation)
      (made : firstAnswer host word retrieval principal outcome = some answer)
      (escalates : Escalates host word retrieval escalationModel principal (.ok outcome)) :
      Went host word retrieval escalationModel principal (.ok outcome) (.error err) 2
        (some { resultOf answer outcome with escalation := some escalation })
  | raisedAgain (outcome other : ChatOutcome)
      (escalates : Escalates host word retrieval escalationModel principal (.ok outcome)) :
      Went host word retrieval escalationModel principal (.ok outcome) (.ok other) 2 none
  | twice (outcome other : ChatOutcome) (answer again : GroundedAnswer) (escalation : Escalation)
      (made : firstAnswer host word retrieval principal outcome = some answer)
      (second : finalize host word other.content retrieval.chunks = some again)
      (escalates : Escalates host word retrieval escalationModel principal (.ok outcome)) :
      Went host word retrieval escalationModel principal (.ok outcome) (.ok other) 2
        (some { (if picksSecond again then resultOf again other else resultOf answer outcome) with
          usage := totalUsage [outcome, other]
          costUsd := totalCost [outcome, other]
          attempts := outcome.attempts ++ other.attempts
          escalation := some escalation })

theorem answer_went (some_chunks : retrieval.chunks ≠ []) :
    ∃ choices, (answerFromKnowledge host word question history retrieval modelChoice allowEgress
        escalationModel principal first second params).1 =
        callsFor question history retrieval allowEgress params choices ∧
      Went host word retrieval escalationModel principal first second choices.length
        (answerFromKnowledge host word question history retrieval modelChoice allowEgress
          escalationModel principal first second params).2 := by
  unfold answerFromKnowledge
  rw [if_neg some_chunks]
  cases first with
  | error err => exact ⟨[modelChoice], rfl, .failed err second⟩
  | ok outcome =>
      dsimp only
      have shape : firstAnswer host word retrieval principal outcome =
          (finalize host word outcome.content retrieval.chunks).map fun made =>
            if made.abstained then clarifyingAbstention principal else made := rfl
      cases finalized : finalize host word outcome.content retrieval.chunks with
      | none =>
          rw [finalized] at shape
          exact ⟨[modelChoice], rfl, .raised outcome second shape⟩
      | some made =>
          rw [finalized, Option.map_some] at shape
          dsimp only
          generalize (if made.abstained = true then clarifyingAbstention principal else made) =
            answer at shape
          have stays : (escalationReason word answer true = none ∨
              largerModel escalationModel = none ∨
              largerModel escalationModel = some outcome.model.id) →
              ¬Escalates host word retrieval escalationModel principal (.ok outcome) := by
            rintro ways ⟨_, _, larger, ⟨⟩, given, reason, named, other⟩
            cases shape.symm.trans given
            rcases ways with no | no | own
            · simp [no] at reason
            · cases no.symm.trans named
            · cases own.symm.trans named
              exact other rfl
          cases reason : escalationReason word answer true with
          | none =>
              exact ⟨[modelChoice], rfl, .once outcome second answer question shape
                (stays (.inl reason))⟩
          | some why =>
              cases larger : largerModel escalationModel with
              | none =>
                  exact ⟨[modelChoice], rfl, .once outcome second answer question shape
                    (stays (.inr (.inl larger)))⟩
              | some model =>
                  dsimp only
                  by_cases own : model = outcome.model.id
                  · rw [if_pos own]
                    exact ⟨[modelChoice], rfl, .once outcome second answer question shape
                      (stays (.inr (.inr (own ▸ larger))))⟩
                  · rw [if_neg own]
                    have escalates :
                        Escalates host word retrieval escalationModel principal (.ok outcome) :=
                      ⟨outcome, answer, model, rfl, shape, by rw [reason]; rfl, larger, own⟩
                    cases second with
                    | error err =>
                        exact ⟨[modelChoice, some model], rfl,
                          .unavailable outcome err answer _ shape escalates⟩
                    | ok other =>
                        dsimp only
                        cases again : finalize host word other.content retrieval.chunks with
                        | none =>
                            exact ⟨[modelChoice, some model], rfl,
                              .raisedAgain outcome other escalates⟩
                        | some more =>
                            refine ⟨[modelChoice, some model], rfl, ?_⟩
                            have went := Went.twice outcome other answer more
                              { reason := why, firstModel := outcome.model.id, model := model,
                                outcome := if picksSecond more then "used" else "kept_first" }
                              shape again escalates
                            simpa [totalUsage, totalCost] using went

theorem went_bounded {n : Nat} {came : Option AnswerResult}
    (went : Went host word retrieval escalationModel principal first second n came) : n ≤ 2 := by
  cases went <;> omega

/-- What a result shows, whichever way the turn went. -/
theorem went_shows {n : Nat} {came : Option AnswerResult}
    (went : Went host word retrieval escalationModel principal first second n came)
    (result : AnswerResult) (is_result : came = some result) :
    Shows host word retrieval principal result ([first, second].take n) := by
  cases went with
  | failed err second =>
      cases is_result
      rfl
  | raised outcome second raises => cases is_result
  | once outcome second answer question made enough =>
      cases is_result
      exact ⟨by rw [withGapTicket_error]; rfl, by rw [withGapTicket_answer]; exact made⟩
  | unavailable outcome err answer escalation made escalates =>
      cases is_result
      exact ⟨rfl, made⟩
  | raisedAgain outcome other escalates => cases is_result
  | twice outcome other answer again escalation made finalized escalates =>
      cases is_result
      refine ⟨by dsimp only; split <;> rfl, again, finalized, ?_⟩
      have picks : picksSecond again = true ↔ again.citations ≠ [] ∧ again.abstained = false := by
        simp [picksSecond]
      by_cases better : picksSecond again = true
      · rw [if_pos (picks.mp better), if_pos better]
        rfl
      · rw [if_neg (fun both => better (picks.mpr both)), if_neg better]
        exact made

/-- A result accounts for the calls but for the attempts of a second one that failed. -/
theorem went_accounts {n : Nat} {came : Option AnswerResult}
    (went : Went host word retrieval escalationModel principal first second n came) :
    (∀ result, came = some result → AccountsFor ([first, second].take n) result) ↔
      ¬Untold host word retrieval escalationModel principal first second := by
  have told : (∀ outcome, second = .ok outcome → ¬Untold host word retrieval escalationModel
      principal first second) := by
    rintro outcome rfl ⟨-, err, failed, -⟩
    cases failed
  cases went with
  | failed err second =>
      refine iff_of_true (fun result same => ?_) (fun untold => ?_)
      · cases same
        exact ⟨by simp [AnswerResult.reported, attemptsOf], by simp, by simp⟩
      · obtain ⟨⟨_, _, _, failed, _⟩, _⟩ := untold
        cases failed
  | raised outcome second raises =>
      refine iff_of_true (fun result is_result => by cases is_result) ?_
      rintro ⟨⟨_, answer, _, ⟨⟩, made, _⟩, _⟩
      cases raises.symm.trans made
  | once outcome second answer question made enough =>
      refine iff_of_true (fun result same => ?_) fun untold => enough untold.1
      cases same
      exact ⟨by simp [attemptsOf], by simp [resultOf], by simp [resultOf]⟩
  | unavailable outcome err answer escalation made escalates =>
      constructor
      · rintro accounts ⟨-, _, ⟨⟩, attempts⟩
        have all := (accounts _ rfl).attempts
        have own : outcome.attempts = outcome.attempts ++ (err.attempts ++ []) := all
        exact attempts (by simpa using own)
      · rintro told result ⟨⟩
        have quiet : err.attempts = [] := by
          by_contra attempts
          exact told ⟨escalates, err, rfl, attempts⟩
        refine ⟨?_, by simp [resultOf], by simp [resultOf]⟩
        show outcome.attempts = outcome.attempts ++ (err.attempts ++ [])
        rw [quiet, List.append_nil, List.append_nil]
  | raisedAgain outcome other escalates =>
      exact iff_of_true (fun result is_result => by cases is_result) (told other rfl)
  | twice outcome other answer again escalation made finalized escalates =>
      refine iff_of_true (fun result same => ?_) (told other rfl)
      cases same
      refine ⟨?_, rfl, rfl⟩
      have calls : ([Except.ok outcome, .ok other] : List Came).flatMap attemptsOf =
          outcome.attempts ++ other.attempts := by
        simp [attemptsOf]
      show AnswerResult.reported _ = ([Except.ok outcome, .ok other] : List Came).flatMap attemptsOf
      rw [calls]
      split <;> rfl

theorem told_of_accounted (some_chunks : retrieval.chunks ≠ [])
    (accounted : Accounted host word retrieval allowEgress principal params first second
      (answerFromKnowledge host word question history retrieval modelChoice allowEgress
        escalationModel principal first second params)) :
    ¬Untold host word retrieval escalationModel principal first second := by
  obtain ⟨choices, calls, went⟩ := @answer_went host word question history retrieval modelChoice
    allowEgress escalationModel principal params first second some_chunks
  refine (went_accounts went).mp ?_
  have accounts := accounted.accounts
  rw [calls, callsFor, List.length_map] at accounts
  exact accounts

theorem accounted_of_told (some_chunks : retrieval.chunks ≠ [])
    (told : ¬Untold host word retrieval escalationModel principal first second) :
    Accounted host word retrieval allowEgress principal params first second
      (answerFromKnowledge host word question history retrieval modelChoice allowEgress
        escalationModel principal first second params) := by
  obtain ⟨choices, calls, went⟩ := @answer_went host word question history retrieval modelChoice
    allowEgress escalationModel principal params first second some_chunks
  have count : (answerFromKnowledge host word question history retrieval modelChoice allowEgress
      escalationModel principal first second params).1.length = choices.length := by
    rw [calls, callsFor, List.length_map]
  constructor
  · rw [count]
    exact went_bounded went
  · refine ⟨buildMessages question retrieval.chunks history (0 < retrieval.admittedByReview), ?_⟩
    rw [calls]
    intro call mem
    obtain ⟨choice, -, rfl⟩ := List.mem_map.mp mem
    exact ⟨rfl, rfl, rfl⟩
  · rw [count]
    exact went_shows went
  · rw [count]
    exact (went_accounts went).mpr told

/-- **A turn with sources is bounded, honest and fully accounted for unless a second call fails
after it has made attempts.** -/
theorem escalation_accounted_iff (some_chunks : retrieval.chunks ≠ []) :
    Accounted host word retrieval allowEgress principal params first second
        (answerFromKnowledge host word question history retrieval modelChoice allowEgress
          escalationModel principal first second params) ↔
      ¬Untold host word retrieval escalationModel principal first second :=
  ⟨told_of_accounted some_chunks, accounted_of_told some_chunks⟩

end

/-! ## Poles -/

def LARGER : String := "ollama/llama3.1-8b"

def attempted (modelId : String) (outcome : AttemptOutcome) : AttemptRecord where
  kind := .chat
  modelId := modelId
  provider := "ollama"
  attempt := 1
  outcome := outcome

/-- A reply without a source. -/
def uncitedReply : ChatOutcome where
  content := "Yes."
  finishReason := some "stop"
  usage := { promptTokens := 900, completionTokens := 2 }
  model := { id := "ollama/llama3.2-3b", provider := "ollama" }
  route := "chat-default"
  attempts := [attempted "ollama/llama3.2-3b" .success]
  costUsd := 0

def citedReply : ChatOutcome where
  content := "It is requested in the portal [1]."
  finishReason := some "stop"
  usage := { promptTokens := 900, completionTokens := 9 }
  model := { id := LARGER, provider := "ollama" }
  route := LARGER
  attempts := [attempted LARGER .timeout, attempted LARGER .success]
  costUsd := 0

def outage : GatewayFailure where
  code := .providerUnavailable
  message := "no model provider could serve the request"
  attempts := [attempted LARGER .timeout, attempted LARGER .error]
  proper := nofun

theorem uncited_escalates : Escalates Host.plain plainWord { chunks := [leaveSection] } (some LARGER)
    none (.ok uncitedReply) := by
  refine ⟨uncitedReply,
    { text := "Yes.", citations := [], abstained := false, invalidCitations := 0 }, LARGER, rfl,
    ?_, rfl, rfl, by decide⟩
  unfold firstAnswer
  decide +kernel

/-- The larger model was tried twice and failed: the trail holds the first call only. -/
theorem failed_escalation_untold :
    ¬Accounted Host.plain plainWord { chunks := [leaveSection] } true none {} (.ok uncitedReply)
      (.error outage)
      (answerFromKnowledge Host.plain plainWord "Do I ask for leave in the portal?" []
        { chunks := [leaveSection] } none true (some LARGER) none (.ok uncitedReply)
        (.error outage) {}) := by
  intro accounted
  exact told_of_accounted (List.cons_ne_nil _ _) accounted
    ⟨uncited_escalates, outage, rfl, List.cons_ne_nil _ _⟩

/-- The larger model answers with a source: its answer is shown and both calls are told. -/
theorem escalation_accounted_pole :
    Accounted Host.plain plainWord { chunks := [leaveSection] } true none {} (.ok uncitedReply)
      (.ok citedReply)
      (answerFromKnowledge Host.plain plainWord "Do I ask for leave in the portal?" []
        { chunks := [leaveSection] } none true (some LARGER) none (.ok uncitedReply)
        (.ok citedReply) {}) := by
  refine (escalation_accounted_iff (List.cons_ne_nil _ _)).mpr ?_
  rintro ⟨-, err, failed, -⟩
  cases failed

end OpsAssist.Answering
