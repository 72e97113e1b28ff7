/-
# OpsAssist.Api.SameAnswer -- both chat endpoints ground the same answer

`/api/chat` answers a knowledge turn in one piece, `/api/chat/stream` as its deltas arrive.

`endpoints_agree`: for one outcome of the gateway, whichever way its reply is split, both
send the same messages with the same permission for egress, store the same message and
return the same answer.  Pole: `endpoints_agree_pole`.
-/
import OpsAssist.Api.Stream

namespace OpsAssist.SameAnswer

set_option autoImplicit false

open Theory Gateway Answering

/-! ## `/api/chat` -/

def GATEWAY_STATUS (failure : GatewayFailure) : Nat :=
  match here : failure.code with
  | .badRequest => 502
  | .providerUnavailable => 503
  | .noAvailableProvider => 503
  | .deadlineExceeded => 504
  | .providerErrorMidStream => absurd here failure.proper

structure ChatResponse where
  content : String
  route : String
  citations : List CitationOut
  grounded : Bool
  abstained : Bool
  repointedCitations : Nat
  escalation : Option Escalation
  suggestedAction : Option SuggestedAction
  model : Option (String × String)
  modelRoute : Option String
  fallbackUsed : Bool
  finishReason : Option String
  usage : Usage
  costUsd : ℚ
  retrieval : RetrievalOut
  attempts : List AttemptRecord

inductive ChatReply where
  | answered (response : ChatResponse)
  | error (status : Nat) (code message : String) (attempts : List AttemptRecord)
  | raised

/-- What a turn through `/api/chat` asks, stores and replies. -/
structure ChatTurn where
  calls : List GatewayCall := []
  stored : List Saved := []
  reply : ChatReply

section

variable (host : Host) (word : Char → Bool) (settings : Settings) (principal : Principal)
  (prep : Prepared)

/-- The response for an answer of the knowledge path. -/
def responseOf (retrieval : RetrievalResult) (result : AnswerResult) : ChatResponse where
  content := result.answer.text
  route := "knowledge"
  citations := citationsOut result.answer
  grounded := result.answer.grounded
  abstained := result.answer.abstained
  repointedCitations := result.answer.repointedCitations
  escalation := result.escalation
  suggestedAction := result.suggestedAction
  model := result.modelId.map fun id => (id, result.provider.getD "")
  modelRoute := result.route
  fallbackUsed := result.fallbackUsed
  finishReason := result.finishReason
  usage := result.usage
  costUsd := result.costUsd
  retrieval := retrievalOut retrieval
  attempts := result.attempts

/-- The gateway call of a knowledge turn. -/
def callFor (retrieval : RetrievalResult) : GatewayCall where
  modelChoice := prep.modelChoice
  messages := buildMessages prep.question retrieval.chunks prep.history
    (0 < retrieval.admittedByReview)
  allowEgress := egressAllowed settings prep retrieval

/-- The knowledge path of `chat`, for what retrieval and the gateway make of it. -/
def chat (found : Except GatewayFailure RetrievalResult)
    (first second : Except GatewayFailure ChatOutcome) : ChatTurn :=
  match found with
  | .error err =>
      { stored := [{ content := "", status := .error }]
        reply := .error 503 "retrieval_unavailable" "knowledge search is unavailable" err.attempts }
  | .ok retrieval =>
      let made := Answering.answerFromKnowledge host word prep.question prep.history retrieval
        prep.modelChoice (egressAllowed settings prep retrieval) settings.escalationModel
        (some principal) first second
      match made.2 with
      | none => { calls := made.1, reply := .raised }
      | some result =>
          match result.error with
          | some failure =>
              { calls := made.1
                stored := [{ content := "", status := .error }]
                reply := .error (GATEWAY_STATUS failure) (codeText failure.code) failure.message
                  failure.attempts }
          | none =>
              { calls := made.1
                stored := [{
                  content := result.answer.text
                  status := .complete
                  modelId := result.modelId
                  usage := if result.modelId.isSome then some result.usage else none
                  citations := some (citationsOut result.answer) }]
                reply := .answered (responseOf retrieval result) }

/-! ## The same outcome, streamed -/

/-- What a stream reports beside its text. -/
structure Delivery where
  route : String
  fallbackUsed : Bool
  usage : Usage
  costUsd : ℚ
  finishReason : Option String
  latency : ℚ
  ttft : ℚ
  message : String
  attempts : List AttemptRecord

/-- The findings of a stream of deltas. -/
def deltaFindings (parts : List String) : List Finding :=
  parts.flatMap fun text => [.heard (.delta text) {} 0, .resumed]

/-- The findings of a stream with this outcome, its consumer reading to the end. -/
def streamFindings (chunks : List RetrievedChunk) (outcome : Except GatewayFailure ChatOutcome)
    (parts : List String) (d : Delivery) : List Finding :=
  match outcome with
  | .error failure =>
      [.heard (.failed failure.code d.message false d.attempts) {} 0, .resumed, .exhausted]
  | .ok served =>
      [.heard (.started served.model d.route d.fallbackUsed) {} 0, .resumed] ++
        deltaFindings parts ++
        [.heard (.completed served.model d.finishReason d.latency d.ttft d.attempts) d.usage
          d.costUsd] ++
        -- an exception while finalising ends the generator
        if (finalAnswer host word principal chunks parts).isSome then
          [.resumed, .summarised, .exhausted]
        else []

/-- The findings of a knowledge turn. -/
def findings (found : Except GatewayFailure RetrievalResult)
    (outcome : Except GatewayFailure ChatOutcome) (parts : List String) (d : Delivery) :
    List Finding :=
  [.resumed, .routed .knowledge] ++
    match found with
    | .error _ => [.unavailable, .resumed]
    | .ok retrieval =>
        [.retrieved retrieval, .remembered] ++
          if retrieval.chunks = [] then [.resumed, .resumed]
          else streamFindings host word principal retrieval.chunks outcome parts d

end

/-! ## What is compared -/

/-- What a caller is told. -/
structure Returned where
  content : String
  citations : List CitationOut
  grounded : Bool
  abstained : Bool
  suggestedAction : Option SuggestedAction
deriving DecidableEq

def ChatTurn.returned (turn : ChatTurn) : List Returned :=
  match turn.reply with
  | .answered r => [⟨r.content, r.citations, r.grounded, r.abstained, r.suggestedAction⟩]
  | _ => []

def ChatTurn.errors (turn : ChatTurn) : List String :=
  match turn.reply with
  | .error _ code _ _ => [code]
  | _ => []

def streamReturned (sent : List Sse) : List Returned :=
  sent.filterMap fun
    | .done r => some ⟨r.content, r.citations, r.grounded, r.abstained, r.suggestedAction⟩
    | _ => none

def streamErrors (sent : List Sse) : List String :=
  sent.filterMap fun
    | .error code _ _ _ _ => some code
    | _ => none

/-- A stored message without its usage. -/
def essence (m : Saved) : String × MessageStatus × Option String × Option (List CitationOut) :=
  (m.content, m.status, m.modelId, m.citations)

/-- Two turns ask, store and return the same. -/
structure Agree (chat : ChatTurn) (stream : Turning) : Prop where
  asked : chat.calls = stream.asked.toList
  stored : chat.stored.map essence = stream.stored.map essence
  returned : chat.returned = streamReturned stream.sent
  errors : chat.errors = streamErrors stream.sent

section

variable {host : Host} {word : Char → Bool} {settings : Settings} {principal : Principal}
  {prep : Prepared} {requestId conversationId userMessageId : String}

/-- Without escalation there is one call and one answer. -/
theorem answer_of_reply {retrieval : RetrievalResult} (some_chunks : retrieval.chunks ≠ [])
    (disabled : largerModel settings.escalationModel = none) (served : ChatOutcome)
    (second : Except GatewayFailure ChatOutcome) :
    Answering.answerFromKnowledge host word prep.question prep.history retrieval prep.modelChoice
      (egressAllowed settings prep retrieval) settings.escalationModel (some principal)
      (.ok served) second =
      ([callFor settings prep retrieval],
        ((finalize host word served.content retrieval.chunks).map fun answer =>
          if answer.abstained then clarifyingAbstention (some principal) else answer).map
          fun answer => withGapTicket (resultOf answer served) prep.question (some principal)) := by
  simp only [Answering.answerFromKnowledge, if_neg some_chunks, disabled]
  cases finalize host word served.content retrieval.chunks with
  | none => rfl
  | some made =>
      simp only [Option.map_some]
      cases escalationReason word
        (if made.abstained = true then clarifyingAbstention (some principal) else made) true <;> rfl

/-! ## The streamed turn -/

/-- Deltas are handed on one by one. -/
theorem run_deltas {retrieval : RetrievalResult} : ∀ (parts : List String) {t : Turning},
    t.stop = .listening retrieval .streaming →
    Run (Turning.Step host word settings principal prep requestId) t (deltaFindings parts)
      { t with
        produced := t.produced ++ parts, sent := t.sent ++ parts.map .delta,
        account := { t.account with deltas := t.account.deltas ++ parts } }
  | [], t, _ => by
      simp only [List.append_nil, List.map_nil]
      exact .nil t
  | text :: parts, t, here => by
      let heard : Turning :=
        { t with
          stop := .handing retrieval .streaming, produced := t.produced ++ [text],
          sent := t.sent ++ [.delta text],
          account := { t.account with deltas := t.account.deltas ++ [text] } }
      have first : Turning.Step host word settings principal prep requestId t
          (.heard (.delta text) {} 0) heard := by
        show Turning.step host word settings principal prep requestId t _ = some heard
        simp only [Turning.step, Turning.act, here]
        rfl
      have rest := run_deltas parts (t := { heard with stop := .listening retrieval .streaming }) rfl
      have resumed : Turning.Step host word settings principal prep requestId heard .resumed
          { heard with stop := t.stop } := by
        rw [here]
        rfl
      simp only [heard, List.append_assoc, List.singleton_append, ← here] at rest
      exact .cons first (.cons resumed rest)

/-- Retrieval is reached without a word to the caller. -/
theorem run_opening (retrieval : RetrievalResult) :
    Run (Turning.Step host word settings principal prep requestId)
      (Turning.start requestId conversationId userMessageId)
      [.resumed, .routed .knowledge, .retrieved retrieval]
      { stop := .remembering retrieval,
        sent := [.opened conversationId userMessageId requestId],
        account := { chunks := retrieval.chunks } } :=
  .cons rfl (.cons rfl (.cons rfl (.nil _)))

/-- Retrieval that admitted something goes on to the gateway. -/
theorem run_asking {retrieval : RetrievalResult} (some_chunks : retrieval.chunks ≠ []) :
    Run (Turning.Step host word settings principal prep requestId)
      (Turning.start requestId conversationId userMessageId)
      [.resumed, .routed .knowledge, .retrieved retrieval, .remembered]
      { stop := .listening retrieval .silent,
        sent := [.opened conversationId userMessageId requestId],
        asked := some (callFor settings prep retrieval),
        account := { chunks := retrieval.chunks } } := by
  refine (run_opening retrieval).append (.single ?_)
  show Turning.step host word settings principal prep requestId _ .remembered = some _
  simp only [Turning.step, Turning.act, Account.hear, if_neg some_chunks, Option.map_some]
  rfl

variable (settings prep requestId conversationId userMessageId) in
/-- The turn when its reply has been streamed. -/
def streamed (retrieval : RetrievalResult) (served : ChatOutcome) (parts : List String)
    (d : Delivery) : Turning where
  stop := .listening retrieval .streaming
  produced := parts
  modelId := some served.model.id
  sent := [.opened conversationId userMessageId requestId,
    .model served.model.id served.model.provider d.route d.fallbackUsed] ++ parts.map .delta
  asked := some (callFor settings prep retrieval)
  account := { chunks := retrieval.chunks, deltas := parts }

theorem run_streaming {retrieval : RetrievalResult} (some_chunks : retrieval.chunks ≠ [])
    (served : ChatOutcome) (parts : List String) (d : Delivery) :
    Run (Turning.Step host word settings principal prep requestId)
      (Turning.start requestId conversationId userMessageId)
      ([.resumed, .routed .knowledge, .retrieved retrieval, .remembered] ++
        ([.heard (.started served.model d.route d.fallbackUsed) {} 0, .resumed] ++
          deltaFindings parts))
      (streamed settings prep requestId conversationId userMessageId retrieval served parts d) := by
  refine (run_asking some_chunks).append (.append (.cons rfl (.cons rfl (.nil _))) ?_)
  exact run_deltas parts rfl

/-- The deltas and what stands before them tell the caller neither an answer nor an error. -/
theorem returned_deltas (front : List Sse) (parts : List String) (last : List Sse) :
    streamReturned (front ++ parts.map .delta ++ last) =
      streamReturned front ++ streamReturned last ∧
    streamErrors (front ++ parts.map .delta ++ last) = streamErrors front ++ streamErrors last := by
  have quiet : streamReturned (parts.map .delta) = [] ∧ streamErrors (parts.map .delta) = [] := by
    induction parts with
    | nil => exact ⟨rfl, rfl⟩
    | cons text parts ih => exact ih
  constructor
  · rw [streamReturned, List.filterMap_append, List.filterMap_append]
    show streamReturned front ++ streamReturned (parts.map .delta) ++ streamReturned last = _
    rw [quiet.1, List.append_nil]
  · rw [streamErrors, List.filterMap_append, List.filterMap_append]
    show streamErrors front ++ streamErrors (parts.map .delta) ++ streamErrors last = _
    rw [quiet.2, List.append_nil]

/-- Both abstain alike when nothing was retrieved. -/
theorem agree_on_nothing {retrieval : RetrievalResult} (none : retrieval.chunks = [])
    (first second : Except GatewayFailure ChatOutcome) :
    ∃ t, Run (Turning.Step host word settings principal prep requestId)
        (Turning.start requestId conversationId userMessageId)
        [.resumed, .routed .knowledge, .retrieved retrieval, .remembered, .resumed, .resumed] t ∧
      t.stop = .ended ∧
      Agree (chat host word settings principal prep (.ok retrieval) first second) t := by
  have answered : Answering.answerFromKnowledge host word prep.question prep.history retrieval
      prep.modelChoice (egressAllowed settings prep retrieval) settings.escalationModel
      (some principal) first second =
      ([], some { answer := clarifyingAbstention (some principal), route := some "knowledge",
                  suggestedAction := knowledgeGapTicket prep.question (some principal) }) := by
    rw [Answering.answerFromKnowledge, if_pos none]
    rfl
  let told : Turning := Turning.tell
    { stop := .remembering retrieval, sent := [.opened conversationId userMessageId requestId],
      account := {
        chunks := retrieval.chunks,
        verdict := .answered (clarifyingAbstention (some principal)).text } }
    (clarifyingAbstention (some principal)).text
    { content := (clarifyingAbstention (some principal)).text, route := "knowledge",
      grounded := true, abstained := true,
      suggestedAction := knowledgeGapTicket prep.question (some principal),
      retrieval := some (retrievalOut retrieval) }
  have decided : Turning.Step host word settings principal prep requestId
      { stop := .remembering retrieval, sent := [.opened conversationId userMessageId requestId],
        account := { chunks := retrieval.chunks } } .remembered told := by
    show Turning.step host word settings principal prep requestId _ _ = some told
    simp only [Turning.step, Turning.act, Account.hear, if_pos none, Option.map_some]
    rfl
  refine ⟨_, (run_opening retrieval).append (.cons decided (.cons rfl (.cons rfl (.nil _)))), rfl,
    ?_⟩
  constructor <;> simp only [chat, answered] <;> rfl

/-- Both report that no model could answer. -/
theorem agree_on_failure {retrieval : RetrievalResult} (some_chunks : retrieval.chunks ≠ [])
    (failure : GatewayFailure) (second : Except GatewayFailure ChatOutcome) (d : Delivery) :
    ∃ t, Run (Turning.Step host word settings principal prep requestId)
        (Turning.start requestId conversationId userMessageId)
        ([.resumed, .routed .knowledge, .retrieved retrieval, .remembered] ++
          [.heard (.failed failure.code d.message false d.attempts) {} 0, .resumed, .exhausted])
        t ∧
      t.stop = .ended ∧
      Agree (chat host word settings principal prep (.ok retrieval) (.error failure) second) t := by
  have answered : Answering.answerFromKnowledge host word prep.question prep.history retrieval
      prep.modelChoice (egressAllowed settings prep retrieval) settings.escalationModel
      (some principal) (.error failure) second =
      ([callFor settings prep retrieval],
        some { answer := abstention, error := some failure }) := by
    rw [Answering.answerFromKnowledge, if_neg some_chunks]
    rfl
  refine ⟨_, (run_asking some_chunks).append (.cons rfl (.cons rfl (.cons rfl (.nil _)))), rfl, ?_⟩
  constructor <;> simp only [chat, answered] <;> rfl

/-- Both answer with what finalising makes of the reply, or are left by its exception. -/
theorem agree_on_reply {retrieval : RetrievalResult} (some_chunks : retrieval.chunks ≠ [])
    (disabled : largerModel settings.escalationModel = none) (served : ChatOutcome)
    (second : Except GatewayFailure ChatOutcome) (parts : List String)
    (whole : String.join parts = served.content) (d : Delivery) :
    ∃ t, Run (Turning.Step host word settings principal prep requestId)
        (Turning.start requestId conversationId userMessageId)
        ([.resumed, .routed .knowledge, .retrieved retrieval, .remembered] ++
          streamFindings host word principal retrieval.chunks (.ok served) parts d) t ∧
      t.stop = .ended ∧
      Agree (chat host word settings principal prep (.ok retrieval) (.ok served) second) t := by
  have same : finalAnswer host word principal retrieval.chunks parts =
      (finalize host word served.content retrieval.chunks).map fun answer =>
        if answer.abstained then clarifyingAbstention (some principal) else answer := by
    rw [finalAnswer, whole]
  have answered : Answering.answerFromKnowledge host word prep.question prep.history retrieval
      prep.modelChoice (egressAllowed settings prep retrieval) settings.escalationModel
      (some principal) (.ok served) second =
      ([callFor settings prep retrieval],
        (finalAnswer host word principal retrieval.chunks parts).map fun answer =>
          withGapTicket (resultOf answer served) prep.question (some principal)) := by
    rw [same]
    exact answer_of_reply some_chunks disabled served second
  have shape : [.resumed, .routed .knowledge, .retrieved retrieval, .remembered] ++
      streamFindings host word principal retrieval.chunks (.ok served) parts d =
      ([.resumed, .routed .knowledge, .retrieved retrieval, .remembered] ++
        ([.heard (.started served.model d.route d.fallbackUsed) {} 0, .resumed] ++
          deltaFindings parts)) ++
      (.heard (.completed served.model d.finishReason d.latency d.ttft d.attempts) d.usage
        d.costUsd ::
        if (finalAnswer host word principal retrieval.chunks parts).isSome then
          [.resumed, .summarised, .exhausted]
        else []) := by
    simp only [streamFindings, List.append_assoc, List.singleton_append]
  rw [shape]
  let before := streamed settings prep requestId conversationId userMessageId retrieval served parts d
  let told := before.account.hear host word principal
    (.heard (.completed served.model d.finishReason d.latency d.ttft d.attempts) d.usage d.costUsd)
  cases final : finalAnswer host word principal retrieval.chunks parts with
  | none =>
      rw [final] at answered
      have left : Turning.Step host word settings principal prep requestId before
          (.heard (.completed served.model d.finishReason d.latency d.ttft d.attempts) d.usage
            d.costUsd)
          { before with stop := .ended, finished := true, account := told } := by
        show Turning.step host word settings principal prep requestId _ _ = some _
        simp only [Turning.step, Turning.act, Phase.hears, Turning.hear, before, streamed, final,
          Option.map_some]
        rfl
      refine ⟨_, (run_streaming some_chunks served parts d).append (.cons left (.nil _)), rfl, ?_⟩
      have quiet := returned_deltas [.opened conversationId userMessageId requestId,
        .model served.model.id served.model.provider d.route d.fallbackUsed] parts []
      rw [List.append_nil] at quiet
      constructor <;> simp only [chat, answered]
      · rfl
      · rfl
      · exact quiet.1.symm
      · exact quiet.2.symm
  | some answer =>
      rw [final] at answered
      let done : Done := {
        content := answer.text
        route := "knowledge"
        suggestedAction :=
          if answer.abstained then knowledgeGapTicket prep.question (some principal) else none
        citations := citationsOut answer
        grounded := answer.grounded
        abstained := answer.abstained
        invalidCitations := answer.invalidCitations
        repointedCitations := answer.repointedCitations
        finishReason := d.finishReason
        usage := some (d.usage, d.costUsd)
        retrieval := some (retrievalOut retrieval)
        latency := some (d.latency, d.ttft)
        attempts := d.attempts }
      let saved : Saved :=
        { content := answer.text, status := .complete, modelId := some served.model.id,
          usage := some d.usage, citations := some (citationsOut answer) }
      have completed : Turning.Step host word settings principal prep requestId before
          (.heard (.completed served.model d.finishReason d.latency d.ttft d.attempts) d.usage
            d.costUsd)
          { before with
            stop := .completing retrieval, finished := true, stored := [saved],
            sent := before.sent ++ [.done done], account := told } := by
        show Turning.step host word settings principal prep requestId _ _ = some _
        simp only [Turning.step, Turning.act, Phase.hears, Turning.hear, before, streamed, final,
          Option.map_some]
        rfl
      refine ⟨_, (run_streaming some_chunks served parts d).append
        (.cons completed (.cons rfl (.cons rfl (.cons rfl (.nil _))))), rfl, ?_⟩
      have shown := returned_deltas [.opened conversationId userMessageId requestId,
        .model served.model.id served.model.provider d.route d.fallbackUsed] parts [.done done]
      constructor <;> simp only [chat, answered, Option.map_some, withGapTicket_resultOf]
      · rfl
      · rfl
      · exact shown.1.symm
      · exact shown.2.symm

/-- **Both endpoints send the same messages with the same permission for egress, store the same
message and return the same answer, however the reply is split.** -/
theorem endpoints_agree (disabled : largerModel settings.escalationModel = none)
    (found : Except GatewayFailure RetrievalResult) (outcome : Except GatewayFailure ChatOutcome)
    (second : Except GatewayFailure ChatOutcome) (parts : List String)
    (whole : ∀ served, outcome = .ok served → String.join parts = served.content) (d : Delivery) :
    ∃ t, Run (Turning.Step host word settings principal prep requestId)
        (Turning.start requestId conversationId userMessageId)
        (findings host word principal found outcome parts d) t ∧
      t.stop = .ended ∧
      Agree (chat host word settings principal prep found outcome second) t := by
  cases found with
  | error err =>
      refine ⟨_, .cons rfl (.cons rfl (.cons rfl (.cons rfl (.nil _)))), rfl, ?_⟩
      constructor <;> rfl
  | ok retrieval =>
      by_cases none : retrieval.chunks = []
      · have same : findings host word principal (.ok retrieval) outcome parts d =
            [.resumed, .routed .knowledge, .retrieved retrieval, .remembered, .resumed,
              .resumed] := by
          simp only [findings, if_pos none]
          rfl
        rw [same]
        exact agree_on_nothing none outcome second
      · have same : findings host word principal (.ok retrieval) outcome parts d =
            [.resumed, .routed .knowledge, .retrieved retrieval, .remembered] ++
              streamFindings host word principal retrieval.chunks outcome parts d := by
          simp only [findings, if_neg none]
          rfl
        rw [same]
        cases outcome with
        | error failure => exact agree_on_failure none failure second d
        | ok served => exact agree_on_reply none disabled served second parts (whole served rfl) d

end

/-! ## Pole -/

def served : ChatOutcome where
  content := "It is requested in the portal [1]."
  finishReason := some "stop"
  usage := {}
  model := { id := "local/small", provider := "local" }
  route := "chat-default"
  attempts := []
  costUsd := 0

def delivery : Delivery where
  route := "chat-default"
  fallbackUsed := false
  usage := {}
  costUsd := 0
  finishReason := some "stop"
  latency := 2
  ttft := 1
  message := ""
  attempts := []

theorem endpoints_agree_pole :
    ∃ t, Run (Turning.Step Host.plain plainWord { escalationModel := none } staff asking "r-1")
        (Turning.start "r-1" "c-1" "m-2")
        (findings Host.plain plainWord staff (.ok { chunks := [leaveSection] }) (.ok served)
          ["It is requested ", "in the portal [", "1]."] delivery) t ∧
      t.stop = .ended ∧
      Agree (chat Host.plain plainWord { escalationModel := none } staff asking
        (.ok { chunks := [leaveSection] }) (.ok served) (.ok served)) t :=
  endpoints_agree rfl _ _ _ _ (fun _ same => by cases same; decide) _

end OpsAssist.SameAnswer
