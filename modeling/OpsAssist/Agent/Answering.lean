/-
# OpsAssist.Agent.Answering -- the knowledge path of a turn

The answer to a question from what was retrieved, or an abstention that tells the caller
what to do next.  What the gateway makes of a call comes from outside; the calls that are
made are returned beside the answer.
-/
import OpsAssist.Citations
import OpsAssist.Config
import OpsAssist.Gateway.Ledger
import OpsAssist.Knowledge.Upload
import OpsAssist.Providers.Anthropic

namespace OpsAssist.Answering

set_option autoImplicit false

open Theory Theory.Pattern Theory.Text Gateway
open Anthropic (ChatParams)

/-! ## Gateway calls -/

/-- `ChatOutcome` -/
structure ChatOutcome where
  content : String
  finishReason : Option String
  usage : Usage
  model : ModelSpec
  route : String
  attempts : List AttemptRecord
  costUsd : ℚ

def ChatOutcome.fallbackUsed (outcome : ChatOutcome) : Bool :=
  outcome.attempts.any fun a => a.modelId != outcome.model.id

/-- `GatewayError`; only a stream fails midway. -/
structure GatewayFailure where
  code : GatewayErrorCode
  message : String
  attempts : List AttemptRecord
  proper : code ≠ .providerErrorMidStream

/-- What `gateway.chat` and `gateway.stream_chat` are given. -/
structure GatewayCall where
  modelChoice : Option String
  messages : List ChatMessage
  allowEgress : Bool
  params : ChatParams := {}

/-! ## Abstaining -/

/-- What to do when nothing citable was found. -/
def clarifyHint (principal : Option Principal) : String :=
  match principal with
  | none => ""
  | some principal =>
      let departments := (Upload.writableDepartments principal).mergeSort fun a b => decide (a ≤ b)
      if departments ≠ [] then
        " If this should be covered, rephrase the question with more detail, or upload the " ++
          "relevant document (" ++ String.intercalate ", " departments ++ ") from the console."
      else
        " If this should be covered, rephrase the question with more detail, or ask your " ++
          "department's document owner to publish it."

/-- `SuggestedActionOut`: an action the caller may take. -/
structure SuggestedAction where
  tool : String
  label : String
  arguments : List (String × String)
deriving DecidableEq

/-- A support ticket the caller may raise when no model could answer. -/
def knowledgeGapTicket (question : String) (principal : Option Principal) :
    Option SuggestedAction :=
  match principal with
  | none => none
  | some principal =>
      if principal.has "ticket:create" then
        let asked := join ' ' (words question.toList)
        some {
          tool := "create_support_ticket"
          label := "Raise a ticket for the document owner"
          arguments := [
            ("title", "Knowledge gap: " ++ String.ofList (asked.take 150)),
            ("severity", "low"),
            ("details", "The assistant could not answer this from the documents approved for " ++
              principal.department ++ ". Please publish a document that covers it, or reply " ++
              "with where it is documented.\n\nQuestion: " ++ String.ofList (asked.take 3000))] }
      else none

def clarifyingAbstention (principal : Option Principal) : GroundedAnswer :=
  let hint := clarifyHint principal ++
    if (principal.map (·.has "ticket:create")).getD false then
      " You can also raise a ticket for the document owner."
    else ""
  { text := ABSTAIN ++ hint, citations := [], abstained := true, invalidCitations := 0 }

/-! ## Escalation -/

/-- The answer says that the sources do not cover something. -/
def NOT_COVERED (word : Char → Bool) : Pattern :=
  let choice := fun choices => oneOf (choices.map anyCase)
  oneOf [
    all [edge word, choice ["does", "do", "did"], star space, anyCase "n",
      opt (.set fun c => sameLetter 'o' c || c == '\''), anyCase "t", plus space,
      choice ["mention", "cover", "specify", "provide", "contain", "say", "include"], edge word],
    all [edge word, anyCase "not", plus space,
      choice ["specified", "mentioned", "covered", "stated"], edge word],
    all [edge word, anyCase "no", plus space, choice ["information", "mention"], edge word]]

/-- Why a first answer should be tried again on a larger model. -/
def escalationReason (word : Char → Bool) (answer : GroundedAnswer) (retrieved : Bool) :
    Option String :=
  if !retrieved || answer.abstained then none
  else if answer.citations = [] then some "uncited"
  else if ((NOT_COVERED word).search answer.text.toList).isSome then some "not_covered"
  else none

/-- `pick_answer`: the second answer if it is a cited one. -/
def picksSecond (second : GroundedAnswer) : Bool := second.citations ≠ [] && !second.abstained

structure Escalation where
  reason : String
  firstModel : String
  model : String
  outcome : String
deriving DecidableEq

/-! ## The answer -/

/-- What the caller needs to persist and return. -/
structure AnswerResult where
  answer : GroundedAnswer
  usage : Usage := {}
  costUsd : ℚ := 0
  route : Option String := none
  modelId : Option String := none
  provider : Option String := none
  fallbackUsed : Bool := false
  finishReason : Option String := none
  attempts : List AttemptRecord := []
  error : Option GatewayFailure := none
  escalation : Option Escalation := none
  suggestedAction : Option SuggestedAction := none

/-- `_result` -/
def resultOf (answer : GroundedAnswer) (outcome : ChatOutcome) : AnswerResult where
  answer := answer
  usage := outcome.usage
  costUsd := outcome.costUsd
  route := some outcome.route
  modelId := some outcome.model.id
  provider := some outcome.model.provider
  fallbackUsed := outcome.fallbackUsed
  finishReason := outcome.finishReason
  attempts := outcome.attempts

def withGapTicket (result : AnswerResult) (question : String) (principal : Option Principal) :
    AnswerResult :=
  if result.answer.abstained then
    { result with suggestedAction := knowledgeGapTicket question principal }
  else result

theorem withGapTicket_resultOf (answer : GroundedAnswer) (outcome : ChatOutcome)
    (question : String) (principal : Option Principal) :
    withGapTicket (resultOf answer outcome) question principal =
      { resultOf answer outcome with
        suggestedAction :=
          if answer.abstained then knowledgeGapTicket question principal else none } := by
  have same : (resultOf answer outcome).answer = answer := rfl
  rw [withGapTicket, same]
  by_cases abstained : answer.abstained = true
  · rw [if_pos abstained, if_pos abstained]
    rfl
  · rw [if_neg abstained, if_neg abstained]
    rfl

variable (host : Host) (word : Char → Bool)

/-- An escalation setting that names a model; `None` and the empty text switch it off. -/
def largerModel (escalationModel : Option String) : Option String :=
  escalationModel.filter fun m => m != ""

/-- Grounded answer, or an abstention that tells the caller what to do next, with the calls
made.  `none` when finalising a reply raises. -/
def answerFromKnowledge (question : String) (history : List ChatMessage)
    (retrieval : RetrievalResult) (modelChoice : Option String) (allowEgress : Bool)
    (escalationModel : Option String) (principal : Option Principal)
    (first second : Except GatewayFailure ChatOutcome) (params : ChatParams := {}) :
    List GatewayCall × Option AnswerResult :=
  if retrieval.chunks = [] then
    ([], some (withGapTicket
      { answer := clarifyingAbstention principal, route := some "knowledge" } question principal))
  else
    let messages := buildMessages question retrieval.chunks history
      (0 < retrieval.admittedByReview)
    let call : GatewayCall := { modelChoice, messages, allowEgress, params }
    match first with
    | .error err => ([call], some { answer := abstention, error := some err })
    | .ok outcome =>
        match finalize host word outcome.content retrieval.chunks with
        | none => ([call], none)
        | some made =>
            let answer := if made.abstained then clarifyingAbstention principal else made
            let result := resultOf answer outcome
            match escalationReason word answer true, largerModel escalationModel with
            | some reason, some larger =>
                if larger = outcome.model.id then
                  ([call], some (withGapTicket result question principal))
                else
                  let escalation : String → Escalation := fun came =>
                    { reason, firstModel := outcome.model.id, model := larger, outcome := came }
                  let calls := [call, { call with modelChoice := some larger }]
                  match second with
                  | .error _ =>
                      (calls, some { result with escalation := some (escalation "unavailable") })
                  | .ok other =>
                      match finalize host word other.content retrieval.chunks with
                      | none => (calls, none)
                      | some second =>
                          let used := picksSecond second
                          let chosen := if used then resultOf second other else result
                          (calls, some { chosen with
                            usage := {
                              promptTokens := outcome.usage.promptTokens + other.usage.promptTokens
                              completionTokens :=
                                outcome.usage.completionTokens + other.usage.completionTokens
                              estimated := outcome.usage.estimated || other.usage.estimated }
                            costUsd := outcome.costUsd + other.costUsd
                            attempts := outcome.attempts ++ other.attempts
                            escalation :=
                              some (escalation (if used then "used" else "kept_first")) })
            | _, _ => ([call], some (withGapTicket result question principal))

end OpsAssist.Answering
