/-
# OpsAssist.Api.Stream -- a streamed turn stores its answer

The generator behind `/api/chat/stream` stops at its awaits and at its yields, and goes on
with what it finds there: an answer, an event of the gateway, the consumer's next read, or
an exception, which is also how a client that went away is noticed.  A save is shielded, so
it is one step with what stands before it.

`one_message_iff`: when the generator is over, exactly one assistant message was stored, and
the right one, if and only if it was not left at its first yield, and nothing raised between
deciding the turn and saving it.  Poles: `left_at_meta`, `one_message_iff_pole`.
-/
import OpsAssist.Agent.Answering
import OpsAssist.Agent.Graph
import OpsAssist.Api.Chat
import OpsAssist.Gateway.StreamGrammar

namespace OpsAssist

set_option autoImplicit false

open Theory Gateway Answering

/-! ## What is stored and sent -/

structure ToolOut where
  name : String
  status : String
  message : String
  data : Option Value := none
  pendingActionId : Option Uuid := none
  actionHash : Option String := none

/-- `ToolOut.model_validate`; it raises for a status or data of another kind. -/
def ToolOut.validate (tool : ToolResult) : Option ToolOut :=
  if tool.status ∈ ["ok", "denied", "pending", "error"] ∧
      (tool.data.all fun d => d matches .obj _) = true then
    some { name := tool.tool, status := tool.status, message := tool.message, data := tool.data,
           pendingActionId := tool.pendingActionId, actionHash := tool.actionHash }
  else none

/-- A citation as it is returned and stored. -/
structure CitationOut extends Citation where
  label : String
deriving DecidableEq

def citationsOut (answer : GroundedAnswer) : List CitationOut :=
  answer.citations.map fun c => { c with
    label := c.title ++ " (" ++ c.docKey ++ " v" ++ toString c.version ++ ", " ++ c.locator ++ ")" }

structure RetrievalOut where
  used : Nat
  reviewed : Nat
  admittedByReview : Nat
deriving DecidableEq

def retrievalOut (r : RetrievalResult) : RetrievalOut :=
  { used := r.chunks.length, reviewed := r.reviewed, admittedByReview := r.admittedByReview }

/-- An assistant message, as `_save_assistant` stores it. -/
structure Saved where
  content : String
  status : MessageStatus
  modelId : Option String := none
  usage : Option Usage := none
  citations : Option (List CitationOut) := none
deriving DecidableEq

/-- The `done` event. -/
structure Done where
  content : String
  route : String
  tool : Option ToolOut := none
  citations : List CitationOut := []
  grounded : Bool
  abstained : Bool
  suggestedAction : Option SuggestedAction := none
  invalidCitations : Nat := 0
  repointedCitations : Nat := 0
  finishReason : Option String := none
  usage : Option (Usage × ℚ) := none
  retrieval : Option RetrievalOut := none
  latency : Option (ℚ × ℚ) := none
  attempts : List AttemptRecord := []

inductive Sse where
  | opened (conversationId userMessageId requestId : String)
  | model (model provider route : String) (fallbackUsed : Bool)
  | delta (text : String)
  | done (answer : Done)
  | error (code message : String) (started : Bool) (requestId : String)
      (attempts : List AttemptRecord)

/-- The text of an error code. -/
def codeText : GatewayErrorCode → String
  | .badRequest => "bad_request"
  | .providerUnavailable => "provider_unavailable"
  | .noAvailableProvider => "no_available_provider"
  | .deadlineExceeded => "deadline_exceeded"
  | .providerErrorMidStream => "provider_error_mid_stream"

/-! ## What the gateway hands on -/

/-- How far a gateway stream is. -/
inductive Phase where
  | silent
  | streaming
  | ceased
deriving DecidableEq

/-- The events a stream may hand on next: its start, deltas, and one end. -/
def Phase.hears : Phase → StreamEvent → Option Phase
  | .silent, .started _ _ _ => some .streaming
  | .silent, .failed _ _ false _ => some .ceased
  | .streaming, .delta _ => some .streaming
  | .streaming, .completed _ _ _ _ _ => some .ceased
  | .streaming, .failed _ _ true _ => some .ceased
  | _, _ => none

theorem Gateway.Streaming.phase {trace : List StreamNote} {spec : ModelSpec} {n : Nat}
    {deltas : List String} {items : List StreamItem}
    (streaming : Streaming trace spec n deltas items) :
    (events trace).foldlM Phase.hears .silent = some .streaming := by
  obtain ⟨route, fallback, handed⟩ := streaming.handed
  have passed : ∀ deltas : List String,
      (deltas.map StreamEvent.delta).foldlM Phase.hears .streaming = some .streaming := by
    intro deltas
    induction deltas with
    | nil => rfl
    | cons text deltas ih => exact ih
  rw [handed]
  exact passed deltas

theorem handedOn_phase {trace : List StreamNote}
    (handed : FailedUnstarted trace ∨ HandedOn trace) :
    (events trace).foldlM Phase.hears .silent = some .ceased := by
  rcases handed with ⟨⟨code, message, attempts, silent⟩, -⟩ |
    ⟨before, last, spec, n, deltas, items, rfl, streaming, ended⟩
  · rw [silent]
    rfl
  · have split : events (before ++ [StreamNote.event last]) = events before ++ [last] := by
      rw [events, List.filterMap_append]
      rfl
    rw [split, List.foldlM_append, streaming.phase]
    rcases ended with ⟨_, _, _, _, rfl, -⟩ | ⟨_, _, rfl, -⟩ <;> rfl

/-- **Every stream of the gateway hands on events in this order.** -/
theorem stream_hands_on {gateway : LLMGateway} {blocked : List String} {route : String}
    {targets : List ModelSpec} {deadlineS now : ℚ} {breakers : Breakers}
    {script : Nat → StreamEntry} {k : Nat} {s : StreamSolo}
    (ran : (StreamSolo.start route targets deadlineS now breakers).after gateway blocked script k =
      s) :
    ∃ phase, (events s.trace).foldlM Phase.hears .silent = some phase := by
  have stands : Stream.Stands s.trace s.stream.point := by
    rw [← ran]
    refine stream_after_stands ?_ script k
    show Silent []
    exact ⟨rfl, rfl⟩
  have quiet : Silent s.trace → (events s.trace).foldlM Phase.hears .silent = some .silent :=
    fun silent => by rw [silent.1]; rfl
  cases here : s.stream.point with
  | choosing => exact ⟨_, quiet (by rwa [here] at stands)⟩
  | sleeping spec n until_ => exact ⟨_, quiet (by rwa [here] at stands)⟩
  | closing again => exact ⟨_, quiet (by rwa [here] at stands)⟩
  | opening a timeout =>
      rw [here] at stands
      exact ⟨_, quiet stands.1⟩
  | announced a ttft item =>
      rw [here] at stands
      exact ⟨_, Streaming.phase stands⟩
  | passing a ttft =>
      rw [here] at stands
      obtain ⟨deltas, streaming⟩ := stands
      exact ⟨_, streaming.phase⟩
  | waiting a ttft since idle =>
      rw [here] at stands
      obtain ⟨deltas, streaming⟩ := stands
      exact ⟨_, streaming.phase⟩
  | completing a ttft reason =>
      rw [here] at stands
      obtain ⟨deltas, streaming⟩ := stands
      exact ⟨_, streaming.phase⟩
  | reporting a err emitted =>
      rw [here] at stands
      cases emitted with
      | false => exact ⟨_, quiet stands⟩
      | true =>
          obtain ⟨deltas, streaming⟩ := stands
          exact ⟨_, streaming.phase⟩
  | finished =>
      rw [here] at stands
      exact ⟨_, handedOn_phase stands⟩
  | ended aborted =>
      rw [here] at stands
      cases aborted with
      | false => exact ⟨_, handedOn_phase stands⟩
      | true => exact stands.elim

/-! ## The generator -/

/-- What `_route` decides. -/
inductive RouteDecision where
  /-- a greeting or a refusal -/
  | fixed (route text : String)
  | tool (tool : ToolResult)
  | knowledge

/-- What the generator finds where it stopped. -/
inductive Finding where
  /-- the consumer reads on after a yield -/
  | resumed
  /-- the await or the yield raises -/
  | raised
  | routed (decision : RouteDecision)
  | retrieved (retrieval : RetrievalResult)
  /-- retrieval fails with a `GatewayError` -/
  | unavailable
  | remembered
  /-- the next event of the gateway; the usage and cost of a completed one -/
  | heard (event : StreamEvent) (usage : Usage) (costUsd : ℚ)
  | exhausted
  | summarised

/-- Where the generator stops. -/
inductive Stop where
  /-- at the yield of the first event, before the `try` -/
  | opening
  | routing
  /-- at the yield of a text that was not streamed -/
  | telling (last : Done)
  /-- at the yield of the last event -/
  | parting
  | retrieving
  | remembering (retrieval : RetrievalResult)
  | listening (retrieval : RetrievalResult) (phase : Phase)
  /-- at the yield of an event handed on -/
  | handing (retrieval : RetrievalResult) (phase : Phase)
  /-- at the yield of the `done` event of a stream -/
  | completing (retrieval : RetrievalResult)
  | summarising (retrieval : RetrievalResult)
  | ended

/-- The outcome of a turn, told from what the generator found. -/
inductive Verdict where
  | undecided
  | answered (text : String)
  | failed

/-- What was found so far, as far as the outcome depends on it. -/
structure Account where
  chunks : List RetrievedChunk := []
  deltas : List String := []
  verdict : Verdict := .undecided

structure Turning where
  stop : Stop := .opening
  produced : List String := []
  modelId : Option String := none
  finished : Bool := false
  stored : List Saved := []
  sent : List Sse := []
  asked : Option GatewayCall := none
  account : Account := {}

section

variable (host : Host) (word : Char → Bool) (settings : Settings) (principal : Principal)
  (prep : Prepared) (requestId : String)

/-- The answer of a completed stream. -/
def finalAnswer (chunks : List RetrievedChunk) (produced : List String) : Option GroundedAnswer :=
  (finalize host word (String.join produced) chunks).map fun answer =>
    if answer.abstained then clarifyingAbstention (some principal) else answer

/-- The outcome as the claim of the endpoint has it. -/
def Account.hear (a : Account) : Finding → Account
  | .routed (.fixed _ text) => { a with verdict := .answered text }
  | .routed (.tool tool) => { a with verdict := .answered tool.message }
  | .retrieved retrieval => { a with chunks := retrieval.chunks }
  | .unavailable => { a with verdict := .failed }
  | .remembered =>
      if a.chunks = [] then
        { a with verdict := .answered ((clarifyingAbstention (some principal)).text) }
      else a
  | .heard (.delta text) _ _ => { a with deltas := a.deltas ++ [text] }
  | .heard (.completed _ _ _ _ _) _ _ =>
      let answer := finalAnswer host word principal a.chunks a.deltas
      { a with verdict := .answered ((answer.map fun made => made.text).getD "") }
  | .heard (.failed _ _ false _) _ _ => { a with verdict := .failed }
  | _ => a

/-- The message a turn stores. -/
def Account.message (a : Account) : String × MessageStatus :=
  match a.verdict with
  | .answered text => (text, .complete)
  | .failed => ("", .error)
  | .undecided => (String.join a.deltas, .partial_)

namespace Turning

variable (t : Turning)

/-- Stop at a yield. -/
def yields (event : Sse) (stop : Stop) : Turning := { t with sent := t.sent ++ [event], stop }

/-- `_save_assistant` -/
def save (message : Saved) : Turning := { t with stored := t.stored ++ [message] }

/-- Leave the `try`, by an exception, a return or its end. -/
def leave : Turning :=
  let t := { t with stop := .ended }
  if t.finished then t
  else t.save { content := String.join t.produced, status := .partial_, modelId := t.modelId }

/-- A complete answer that needs no stream: the delta, then the last event. -/
def tell (text : String) (last : Done) : Turning :=
  ({ t with finished := true }.save
    { content := text, status := .complete, citations := some [] }).yields
      (.delta text) (.telling last)

/-- The next event of the gateway. -/
def hear (retrieval : RetrievalResult) (phase : Phase) (event : StreamEvent) (usage : Usage)
    (costUsd : ℚ) : Turning :=
  match event with
  | .started spec route fallbackUsed =>
      { t with modelId := some spec.id }.yields (.model spec.id spec.provider route fallbackUsed)
        (.handing retrieval phase)
  | .delta text =>
      { t with produced := t.produced ++ [text] }.yields (.delta text) (.handing retrieval phase)
  | .completed spec finishReason latency ttft attempts =>
      let t := { t with finished := true }
      match finalAnswer host word principal retrieval.chunks t.produced with
      | none => t.leave
      | some answer =>
          (t.save
            { content := answer.text, status := .complete, modelId := some spec.id,
              usage := some usage, citations := some (citationsOut answer) }).yields
            (.done {
              content := answer.text
              route := "knowledge"
              suggestedAction :=
                if answer.abstained then knowledgeGapTicket prep.question (some principal) else none
              citations := citationsOut answer
              grounded := answer.grounded
              abstained := answer.abstained
              invalidCitations := answer.invalidCitations
              repointedCitations := answer.repointedCitations
              finishReason
              usage := some (usage, costUsd)
              retrieval := some (retrievalOut retrieval)
              latency := some (latency, ttft)
              attempts }) (.completing retrieval)
  | .failed code message started attempts =>
      ({ t with finished := true }.save
        { content := String.join t.produced, status := if started then .partial_ else .error,
          modelId := t.modelId }).yields
        (.error (codeText code) message started requestId attempts) (.handing retrieval phase)

/-- One step of `events`, from where it stopped. -/
def act : Finding → Option Turning
  | .resumed =>
      match t.stop with
      | .opening => some { t with stop := .routing }
      | .telling last => some (t.yields (.done last) .parting)
      | .parting => some t.leave
      | .handing retrieval phase => some { t with stop := .listening retrieval phase }
      | .completing retrieval => some { t with stop := .summarising retrieval }
      | _ => none
  | .raised =>
      match t.stop with
      | .opening => some { t with stop := .ended }
      | .ended => none
      | _ => some t.leave
  | .routed decision =>
      match t.stop with
      | .routing =>
          match decision with
          | .knowledge => some { t with stop := .retrieving }
          | .fixed route text =>
              some (t.tell text
                { content := text, route, grounded := true, abstained := false })
          | .tool tool =>
              match ToolOut.validate tool with
              | none => some { t with finished := true }.leave
              | some tool =>
                  some (t.tell tool.message
                    { content := tool.message, route := "tool", tool := some tool,
                      grounded := true, abstained := false })
      | _ => none
  | .retrieved retrieval =>
      match t.stop with
      | .retrieving => some { t with stop := .remembering retrieval }
      | _ => none
  | .unavailable =>
      match t.stop with
      | .retrieving =>
          some (({ t with finished := true }.save { content := "", status := .error }).yields
            (.error "retrieval_unavailable" "knowledge search is unavailable" false requestId [])
            .parting)
      | _ => none
  | .remembered =>
      match t.stop with
      | .remembering retrieval =>
          if retrieval.chunks = [] then
            let answer := clarifyingAbstention (some principal)
            some (t.tell answer.text
              { content := answer.text, route := "knowledge", grounded := true, abstained := true,
                suggestedAction := knowledgeGapTicket prep.question (some principal),
                retrieval := some (retrievalOut retrieval) })
          else
            some { t with
              stop := .listening retrieval .silent
              asked := some {
                modelChoice := prep.modelChoice
                messages := buildMessages prep.question retrieval.chunks prep.history
                  (0 < retrieval.admittedByReview)
                allowEgress := egressAllowed settings prep retrieval } }
      | _ => none
  | .heard event usage costUsd =>
      match t.stop with
      | .listening retrieval phase =>
          (phase.hears event).map fun phase =>
            t.hear host word principal prep requestId retrieval phase event usage costUsd
      | _ => none
  | .exhausted =>
      match t.stop with
      | .listening _ _ => some t.leave
      | _ => none
  | .summarised =>
      match t.stop with
      | .summarising retrieval => some { t with stop := .listening retrieval .ceased }
      | _ => none

/-- A step, with the account of what was found. -/
def step (finding : Finding) : Option Turning :=
  (t.act host word settings principal prep requestId finding).map fun next =>
    { next with account := t.account.hear host word principal finding }

/-- The generator at its first yield. -/
def start (conversationId userMessageId : String) : Turning :=
  Turning.yields {} (.opened conversationId userMessageId requestId) .opening

/-- What is stored, as the content and status of each message. -/
def messages : List (String × MessageStatus) := t.stored.map fun m => (m.content, m.status)

/-- The step does not leave the turn without a message: it is not an exception at the first
yield, and where it decides the turn nothing raises before the save. -/
def careful : Finding → Bool
  | .raised =>
      match t.stop with
      | .opening => false
      | _ => true
  | .routed (.tool tool) => (ToolOut.validate tool).isSome
  | .heard (.completed _ _ _ _ _) _ _ =>
      match t.stop with
      | .listening retrieval _ =>
          (finalAnswer host word principal retrieval.chunks t.produced).isSome
      | _ => true
  | _ => true

/-! ## Where it stands -/

/-- The turn is open: nothing is stored, and the account has the chunks and the deltas. -/
def Undecided (chunks : List RetrievedChunk) : Prop :=
  t.finished = false ∧ t.stored = [] ∧ t.account = { chunks, deltas := t.produced }

/-- The turn is decided and its message stored. -/
def Decided : Prop := t.finished = true ∧ t.messages = [t.account.message]

def Stands : Prop :=
  match t.stop with
  | .opening | .routing | .retrieving => t.Undecided [] ∧ t.produced = []
  | .remembering retrieval => t.Undecided retrieval.chunks ∧ t.produced = []
  | .listening _ .ceased | .handing _ .ceased => t.Decided
  | .listening retrieval .silent | .handing retrieval .silent =>
      t.Undecided retrieval.chunks ∧ t.produced = []
  | .listening retrieval .streaming | .handing retrieval .streaming =>
      t.Undecided retrieval.chunks
  | .telling _ | .parting | .completing _ | .summarising _ => t.Decided
  | .ended => t.messages = [t.account.message]

/-- The generator was left without a message. -/
def Lost : Prop := (t.stop matches .ended) = true ∧ t.stored = []

variable {t} {host word settings principal prep requestId}

theorem Undecided.leave {chunks : List RetrievedChunk} (undecided : t.Undecided chunks) :
    t.leave.messages = [t.account.message] := by
  obtain ⟨unfinished, nothing, account⟩ := undecided
  unfold Turning.leave
  rw [if_neg (by rw [unfinished]; exact Bool.false_ne_true), account]
  simp only [messages, save, nothing]
  rfl

theorem Decided.leave (decided : t.Decided) : t.leave.messages = [t.account.message] := by
  unfold Turning.leave
  rw [if_pos decided.1]
  exact decided.2

@[simp] theorem leave_stop : t.leave.stop = .ended := by
  unfold Turning.leave
  by_cases ceased : t.finished = true
  · rw [if_pos ceased]
  · rw [if_neg ceased]
    rfl

@[simp] theorem leave_account : t.leave.account = t.account := by
  unfold Turning.leave
  by_cases ceased : t.finished = true
  · rw [if_pos ceased]
  · rw [if_neg ceased]
    rfl

/-- A turn that is left stands with its message. -/
theorem leave_stands (either : (∃ chunks, t.Undecided chunks) ∨ t.Decided) :
    Stands { t.leave with account := t.account } := by
  have right : t.leave.messages = [t.account.message] := by
    rcases either with ⟨chunks, undecided⟩ | decided
    · exact undecided.leave
    · exact decided.leave
  unfold Stands
  simp only [leave_stop]
  exact right

/-- Before it is over a turn is open or decided. -/
theorem Stands.either (stands : t.Stands) (live : t.stop ≠ .ended) :
    (∃ chunks, t.Undecided chunks) ∨ t.Decided := by
  unfold Stands at stands
  cases here : t.stop with
  | opening | routing | retrieving | remembering retrieval =>
      rw [here] at stands
      exact .inl ⟨_, stands.1⟩
  | telling last | parting | completing retrieval | summarising retrieval =>
      rw [here] at stands
      exact .inr stands
  | listening retrieval phase | handing retrieval phase =>
      rw [here] at stands
      cases phase with
      | silent => exact .inl ⟨_, stands.1⟩
      | streaming => exact .inl ⟨_, stands⟩
      | ceased => exact .inr stands
  | ended => exact absurd here live

/-- Telling a text decides the turn. -/
theorem tell_stands {chunks : List RetrievedChunk} (undecided : t.Undecided chunks) (text : String)
    (last : Done) (account : Account) (told : account.verdict = .answered text) :
    Stands { t.tell text last with account } := by
  refine ⟨rfl, ?_⟩
  simp only [messages, tell, save, yields, undecided.2.1, Account.message, told]
  rfl

/-- An event of the gateway keeps the turn in order. -/
theorem hear_stands {retrieval : RetrievalResult} {phase after : Phase} {event : StreamEvent}
    {usage : Usage} {costUsd : ℚ} (here : t.stop = .listening retrieval phase) (stands : t.Stands)
    (hears : phase.hears event = some after)
    (care : t.careful host word principal (.heard event usage costUsd) = true) :
    Stands { t.hear host word principal prep requestId retrieval after event usage costUsd with
      account := t.account.hear host word principal (.heard event usage costUsd) } := by
  unfold Stands at stands
  rw [here] at stands
  cases event with
  | started spec route fallbackUsed =>
      cases phase with
      | silent =>
          cases hears
          exact stands.1
      | streaming | ceased => cases hears
  | delta text =>
      cases phase with
      | streaming =>
          cases hears
          refine ⟨stands.1, stands.2.1, ?_⟩
          show t.account.hear host word principal (.heard (.delta text) usage costUsd) = _
          rw [stands.2.2]
          rfl
      | silent | ceased => cases hears
  | completed spec finishReason latency ttft attempts =>
      cases phase with
      | streaming =>
          cases hears
          unfold careful at care
          simp only [here] at care
          obtain ⟨answer, final⟩ := Option.isSome_iff_exists.mp care
          have same : finalAnswer host word principal t.account.chunks t.account.deltas =
              some answer := by
            rw [stands.2.2]
            exact final
          simp only [hear, final]
          refine ⟨rfl, ?_⟩
          simp only [messages, save, yields, stands.2.1, Account.message, Account.hear, same]
          rfl
      | silent | ceased => cases hears
  | failed code message started attempts =>
      cases phase with
      | silent =>
          cases started with
          | false =>
              cases hears
              refine ⟨rfl, ?_⟩
              simp only [messages, hear, save, yields, stands.1.2.1, stands.2]
              rfl
          | true => cases hears
      | streaming =>
          cases started with
          | false => cases hears
          | true =>
              cases hears
              refine ⟨rfl, ?_⟩
              simp only [messages, hear, save, yields, stands.2.1]
              show _ = [t.account.message]
              rw [stands.2.2]
              rfl
      | ceased => cases hears

/-- **A careful step keeps the turn in order.** -/
theorem step_stands {f : Finding} {next : Turning} (stands : t.Stands)
    (went : t.step host word settings principal prep requestId f = some next)
    (care : t.careful host word principal f = true) : next.Stands := by
  obtain ⟨mid, acted, rfl⟩ := Option.map_eq_some_iff.mp went
  have whole := stands
  unfold Stands at stands
  cases f with
  | resumed =>
      simp only [act] at acted
      cases here : t.stop with
      | opening | completing retrieval | telling last =>
          rw [here] at acted stands
          cases acted
          exact stands
      | handing retrieval phase =>
          rw [here] at acted stands
          cases acted
          cases phase <;> exact stands
      | parting =>
          rw [here] at acted stands
          cases acted
          exact leave_stands (.inr stands)
      | routing | retrieving | remembering _ | listening _ _ | summarising _ | ended =>
          rw [here] at acted
          cases acted
  | raised =>
      simp only [act] at acted
      cases here : t.stop with
      | opening =>
          rw [careful, here] at care
          cases care
      | ended =>
          rw [here] at acted
          cases acted
      | routing | retrieving | telling _ | parting | remembering _ | listening _ _ | handing _ _
      | completing _ | summarising _ =>
          rw [here] at acted
          cases acted
          exact leave_stands (whole.either (by rw [here]; nofun))
  | routed decision =>
      simp only [act] at acted
      cases here : t.stop with
      | routing =>
          rw [here] at acted stands
          cases decision with
          | knowledge =>
              cases acted
              exact stands
          | fixed route text =>
              cases acted
              exact tell_stands stands.1 text _ _ rfl
          | tool tool =>
              cases valid : ToolOut.validate tool with
              | none =>
                  rw [careful, valid] at care
                  cases care
              | some out =>
                  simp only [valid] at acted
                  cases acted
                  have same : out.message = tool.message := by
                    unfold ToolOut.validate at valid
                    split at valid
                    · cases valid
                      rfl
                    · cases valid
                  exact tell_stands stands.1 _ _ _ (by rw [same]; rfl)
      | opening | retrieving | telling _ | parting | remembering _ | listening _ _ | handing _ _
      | completing _ | summarising _ | ended =>
          rw [here] at acted
          cases acted
  | retrieved retrieval =>
      simp only [act] at acted
      cases here : t.stop with
      | retrieving =>
          rw [here] at acted stands
          cases acted
          obtain ⟨⟨unfinished, nothing, account⟩, silent⟩ := stands
          exact ⟨⟨unfinished, nothing, by rw [account]; rfl⟩, silent⟩
      | opening | routing | telling _ | parting | remembering _ | listening _ _ | handing _ _
      | completing _ | summarising _ | ended =>
          rw [here] at acted
          cases acted
  | unavailable =>
      simp only [act] at acted
      cases here : t.stop with
      | retrieving =>
          rw [here] at acted stands
          cases acted
          refine ⟨rfl, ?_⟩
          simp only [messages, save, yields, stands.1.2.1]
          rfl
      | opening | routing | telling _ | parting | remembering _ | listening _ _ | handing _ _
      | completing _ | summarising _ | ended =>
          rw [here] at acted
          cases acted
  | remembered =>
      simp only [act] at acted
      cases here : t.stop with
      | remembering retrieval =>
          rw [here] at acted stands
          obtain ⟨undecided, silent⟩ := stands
          by_cases none : retrieval.chunks = []
          · simp only [if_pos none] at acted
            cases acted
            refine tell_stands undecided _ _ _ ?_
            rw [undecided.2.2, Account.hear, if_pos none]
          · simp only [if_neg none] at acted
            cases acted
            refine ⟨⟨undecided.1, undecided.2.1, ?_⟩, silent⟩
            show t.account.hear host word principal .remembered = _
            rw [undecided.2.2, Account.hear, if_neg none]
      | opening | routing | retrieving | telling _ | parting | listening _ _ | handing _ _
      | completing _ | summarising _ | ended =>
          rw [here] at acted
          cases acted
  | heard event usage costUsd =>
      simp only [act] at acted
      cases here : t.stop with
      | listening retrieval phase =>
          rw [here] at acted stands
          obtain ⟨after, hears, rfl⟩ := Option.map_eq_some_iff.mp acted
          exact hear_stands here whole hears care
      | opening | routing | retrieving | telling _ | parting | remembering _ | handing _ _
      | completing _ | summarising _ | ended =>
          rw [here] at acted
          cases acted
  | exhausted =>
      simp only [act] at acted
      cases here : t.stop with
      | listening retrieval phase =>
          rw [here] at acted
          cases acted
          exact leave_stands (whole.either (by rw [here]; nofun))
      | opening | routing | retrieving | telling _ | parting | remembering _ | handing _ _
      | completing _ | summarising _ | ended =>
          rw [here] at acted
          cases acted
  | summarised =>
      simp only [act] at acted
      cases here : t.stop with
      | summarising retrieval =>
          rw [here] at acted stands
          cases acted
          exact stands
      | opening | routing | retrieving | telling _ | parting | remembering _ | listening _ _
      | handing _ _ | completing _ | ended =>
          rw [here] at acted
          cases acted

/-! ## The run -/

variable (host word settings principal prep requestId) in
/-- The steps of `events`. -/
def Step : Turning → Finding → Turning → Prop :=
  TryStepOf fun t f => t.step host word settings principal prep requestId f

variable (host word principal) in
def Careful (t : Turning) (f : Finding) : Prop := t.careful host word principal f = true

/-- **A step without care loses the turn's message.** -/
theorem step_loses {f : Finding} {next : Turning} (stands : t.Stands)
    (went : t.step host word settings principal prep requestId f = some next)
    (careless : ¬ t.careful host word principal f = true) : next.Lost := by
  obtain ⟨mid, acted, rfl⟩ := Option.map_eq_some_iff.mp went
  unfold Stands at stands
  cases f with
  | raised =>
      simp only [act] at acted
      unfold careful at careless
      cases here : t.stop with
      | opening =>
          rw [here] at acted stands
          cases acted
          exact ⟨rfl, stands.1.2.1⟩
      | routing | retrieving | telling _ | parting | remembering _ | listening _ _ | handing _ _
      | completing _ | summarising _ | ended =>
          rw [here] at careless
          exact absurd rfl careless
  | routed decision =>
      simp only [act] at acted
      cases decision with
      | knowledge | fixed _ _ => exact absurd rfl careless
      | tool tool =>
          cases here : t.stop with
          | routing =>
              rw [here] at acted stands
              cases valid : ToolOut.validate tool with
              | none =>
                  simp only [valid] at acted
                  cases acted
                  exact ⟨rfl, stands.1.2.1⟩
              | some out => exact absurd (by rw [careful, valid]; rfl) careless
          | opening | retrieving | telling _ | parting | remembering _ | listening _ _
          | handing _ _ | completing _ | summarising _ | ended =>
              rw [here] at acted
              cases acted
  | heard event usage costUsd =>
      simp only [act] at acted
      cases event with
      | started _ _ _ | delta _ | failed _ _ _ _ => exact absurd rfl careless
      | completed spec finishReason latency ttft attempts =>
          cases here : t.stop with
          | listening retrieval phase =>
              rw [here] at acted stands
              obtain ⟨after, hears, rfl⟩ := Option.map_eq_some_iff.mp acted
              unfold careful at careless
              simp only [here] at careless
              have raises := Option.not_isSome_iff_eq_none.mp careless
              cases phase with
              | streaming =>
                  simp only [hear, raises]
                  exact ⟨rfl, stands.2.1⟩
              | silent | ceased => cases hears
          | opening | routing | retrieving | telling _ | parting | remembering _ | handing _ _
          | completing _ | summarising _ | ended =>
              rw [here] at acted
              cases acted
  | resumed | retrieved _ | unavailable | remembered | exhausted | summarised =>
      exact absurd rfl careless

/-- Nothing follows the end. -/
theorem step_ended {f : Finding} (ceased : t.stop = .ended) :
    t.step host word settings principal prep requestId f = none := by
  unfold step
  cases f <;> simp [act, ceased]

theorem account_of_run {findings : List Finding} {first last : Turning}
    (run : Run (Step host word settings principal prep requestId) first findings last) :
    last.account = findings.foldl (Account.hear host word principal) first.account := by
  induction run with
  | nil => rfl
  | cons here _ ih =>
      obtain ⟨mid, _, rfl⟩ := Option.map_eq_some_iff.mp here
      rw [ih, List.foldl_cons]

theorem Stands.not_lost (stands : t.Stands) : ¬ t.Lost := by
  rintro ⟨ended, nothing⟩
  unfold Stands at stands
  cases here : t.stop with
  | ended =>
      rw [here] at stands
      simp only [messages, nothing] at stands
      cases stands
  | opening | routing | retrieving | telling _ | parting | remembering _ | listening _ _
  | handing _ _ | completing _ | summarising _ =>
      rw [here] at ended
      cases ended

theorem Lost.stays {f : Finding} {next : Turning} (lost : t.Lost)
    (went : Step host word settings principal prep requestId t f next) : next.Lost := by
  cases here : t.stop with
  | ended => cases (step_ended here).symm.trans went
  | opening | routing | retrieving | telling _ | parting | remembering _ | listening _ _
  | handing _ _ | completing _ | summarising _ =>
      have ended := lost.1
      rw [here] at ended
      cases ended

/-- **When the generator is over, exactly one assistant message was stored, the one the
findings ask for, if and only if every step was careful.** -/
theorem one_message_iff {conversationId userMessageId : String} {findings : List Finding}
    (run : Run (Step host word settings principal prep requestId)
      (start requestId conversationId userMessageId) findings t)
    (ceased : t.stop = .ended) :
    t.messages = [(findings.foldl (Account.hear host word principal) {}).message] ↔
      Run (Guarded (Careful host word principal)
          (Step host word settings principal prep requestId))
        (start requestId conversationId userMessageId) findings t := by
  have first : (start requestId conversationId userMessageId).Stands := ⟨⟨rfl, rfl, rfl⟩, rfl⟩
  have told : t.account = findings.foldl (Account.hear host word principal) {} :=
    account_of_run run
  have keeps : ∀ t f next, Step host word settings principal prep requestId t f next →
      Careful host word principal t f → t.Stands → next.Stands :=
    fun _ _ _ went care stands => step_stands stands went care
  have loses : ∀ t f next, Step host word settings principal prep requestId t f next →
      ¬ Careful host word principal t f → t.Stands → next.Lost :=
    fun _ _ _ went careless stands => step_loses stands went careless
  have decided := run.ends_well_iff keeps loses (fun _ _ _ went lost => lost.stays went)
    (fun _ => Stands.not_lost) first
  rw [← decided, ← told]
  constructor
  · intro right lost
    simp only [messages, lost.2] at right
    cases right
  · intro kept
    have each : ∀ t f next, Guarded (Careful host word principal)
        (Step host word settings principal prep requestId) t f next → Stands t → Stands next :=
      fun t f next step => keeps t f next step.2 step.1
    have stands := (decided.mp kept).invariant each first
    unfold Stands at stands
    rw [ceased] at stands
    exact stands

end Turning

end

/-! ## Poles -/

def staff : Principal where
  userId := "u-1"
  name := "Lan"
  department := "hr"
  role := "employee"
  permissions := []

def asking : Prepared where
  question := "How many days of leave do I have?"
  history := []
  modelChoice := none
  contextClassification := none

/-- A turn after these findings. -/
def turnAfter (findings : List Finding) : Turning :=
  (findings.foldlM (fun (t : Turning) f => t.step Host.plain plainWord {} staff asking "r-1" f)
    (Turning.start "r-1" "c-1" "m-2")).getD {}

/-- **A client that is gone at the first yield leaves the turn without a message.** -/
theorem left_at_meta :
    Run (Turning.Step Host.plain plainWord {} staff asking "r-1")
      (Turning.start "r-1" "c-1" "m-2") [.raised] (turnAfter [.raised]) ∧
    (turnAfter [.raised]).stop = .ended ∧ (turnAfter [.raised]).messages = [] ∧
    ([Finding.raised].foldl (Account.hear Host.plain plainWord staff) {}).message =
      ("", .partial_) := by
  refine ⟨.cons (show _ = some (turnAfter [.raised]) from rfl) (.nil _), rfl, ?_, ?_⟩
  · decide
  · decide

/-- A stream of a delta that the client leaves. -/
def leftAtDelta : List Finding :=
  [.resumed, .routed .knowledge, .retrieved { chunks := [leaveSection] }, .remembered,
    .heard (.started { id := "local/small", provider := "local" } "chat-default" false) {} 0,
    .resumed, .heard (.delta "You have") {} 0, .raised]

theorem leftAtDelta_careful :
    Run (Guarded (Turning.Careful Host.plain plainWord staff)
        (Turning.Step Host.plain plainWord {} staff asking "r-1"))
      (Turning.start "r-1" "c-1" "m-2") leftAtDelta (turnAfter leftAtDelta) := by
  show Run (Guarded (fun t f => Turning.careful Host.plain plainWord staff t f = true)
    (TryStepOf fun t f => Turning.step Host.plain plainWord {} staff asking "r-1" t f)) _ _ _
  exact Run.guarded_of_foldlM rfl

theorem one_message_iff_pole :
    (turnAfter leftAtDelta).messages =
      [(leftAtDelta.foldl (Account.hear Host.plain plainWord staff) {}).message] :=
  (Turning.one_message_iff leftAtDelta_careful.unguarded rfl).mpr leftAtDelta_careful

end OpsAssist
