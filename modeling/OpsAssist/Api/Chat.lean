/-
# OpsAssist.Api.Chat -- the turns of one conversation, and what leaves the box

Each turn prepares the history, takes one of the routes, records the classification of
its context before the answering model sees it, stores the reply and may summarise.
Every gateway call is kept with the providers it reached and the messages they got.
Retrieval, the judge, the models and what `finalize` makes of a reply come from outside.

`nothing_leaks`: while no search turn lists a chunk the conversation's record does not
already keep on the box, nothing of a chunk above the limit reaches a provider outside.
Pole: `listed_reference_leaks`.
-/
import OpsAssist.Agent.Service
import OpsAssist.Memory
import OpsAssist.Theory.Run
import OpsAssist.Tools.Executor

namespace OpsAssist

set_option autoImplicit false

open Theory Traced

/-! ## Gateway calls -/

/-- A model the gateway may invoke, with the `data_egress` of its provider. -/
structure Target where
  id : String
  dataEgress : Bool
deriving DecidableEq

/-- One message list that reached one provider. -/
structure Sent where
  target : Target
  messages : List ChatMessage

/-- What a gateway call meets: the targets it would invoke, and the reply it ends with.
Without one it fails; a stream may have started and produced some text by then. -/
structure Exchange where
  invoked : List Target := []
  reply : Option (Target × String) := none
  started : Bool := false
  produced : String := ""

/-- Without permission for egress, only providers on the box are eligible. -/
def eligible (allowEgress : Bool) (t : Target) : Bool := allowEgress || !t.dataEgress

/-- `gateway.chat`: where the messages went, and the reply, if one came. -/
def gatewayChat (allowEgress : Bool) (messages : List ChatMessage) (x : Exchange) :
    List Sent × Option (Target × String) :=
  let reached := x.invoked.filter (eligible allowEgress)
  (reached.map fun target => { target, messages }, if reached = [] then none else x.reply)

/-- A text a model wrote may quote all of its prompt. -/
def written (messages : List ChatMessage) (text : String) : Text :=
  quoting text (messages.flatMap fun m => m.content.quotes)

/-! ## The knowledge path -/

/-- What `finalize` makes of a reply. -/
structure Finalized where
  text : String
  cited : Bool
  abstained : Bool

/-- The answer functions the routes use. -/
structure Grounding where
  finalize : String → List RetrievedChunk → Finalized
  /-- the answer says the sources do not cover something -/
  notCovered : String → Bool
  /-- the numbers of the passages a judge's reply admits -/
  admitted : String → Nat → List Nat
  /-- the abstention with what to do next -/
  clarifying : String

variable (settings : Settings) (grounding : Grounding)

/-- Show the near misses to a judge when the gate admitted nothing. -/
def reviewNearMisses (question : String) (retrieval : RetrievalResult) (x : Exchange) :
    List Sent × RetrievalResult :=
  if retrieval.chunks ≠ [] ∨ retrieval.nearMisses = [] then ([], retrieval)
  else
    let offered := retrieval.nearMisses
    let called := gatewayChat (settings.allowsEgress (maxClassification offered))
      (gateReviewMessages question offered) x
    let admitted := (called.2.map fun reply => grounding.admitted reply.2 offered.length).getD []
    let chunks := admitted.filterMap fun n => offered[n - 1]?
    (called.1, { retrieval with
      chunks, reviewed := offered.length, admittedByReview := admitted.length })

/-- Why a first answer is tried again on a larger model. -/
def escalates (answer : Finalized) : Bool :=
  !answer.abstained && (!answer.cited || grounding.notCovered answer.text)

/-- The answer, or `none` when no model could give one. -/
def answerFromKnowledge (question : String) (history : List ChatMessage)
    (retrieval : RetrievalResult) (allowEgress : Bool) (first second : Exchange) :
    List Sent × Option Text :=
  if retrieval.chunks = [] then ([], some (plain grounding.clarifying))
  else
    let messages := buildMessages question retrieval.chunks history
      (0 < retrieval.admittedByReview)
    let called := gatewayChat allowEgress messages first
    match called.2 with
    | none => (called.1, none)
    | some (model, reply) =>
        let made := grounding.finalize reply retrieval.chunks
        let answer : Finalized :=
          if made.abstained then
            { text := grounding.clarifying, cited := false, abstained := true }
          else made
        let again := escalates grounding answer &&
          ((settings.escalationModel.map fun m => m != "" && m != model.id).getD false)
        if again = false then (called.1, some (written messages answer.text))
        else
          let escalated := gatewayChat allowEgress messages second
          let sent := called.1 ++ escalated.1
          match escalated.2 with
          | none => (sent, some (written messages answer.text))
          | some (_, reply) =>
              let other := grounding.finalize reply retrieval.chunks
              let chosen := if other.cited && !other.abstained then other else answer
              (sent, some (written messages chosen.text))

/-! ## Turns -/

/-- One conversation and what was sent in it. -/
structure Dialogue where
  conversation : Conversation
  messages : List Message := []
  nextSeq : Nat := 1
  sent : List Sent := []

/-- `Prepared`; the conversation and the user message are known. -/
structure Prepared where
  question : String
  history : List ChatMessage
  modelChoice : Option String
  contextClassification : Option Classification

def Dialogue.addMessage (d : Dialogue) (fromUser : Bool) (content : Text)
    (status : MessageStatus := .complete) : Dialogue :=
  { d with
    messages := d.messages ++
      [{ seq := d.nextSeq, conversationId := d.conversation.id, fromUser, content, status }],
    nextSeq := d.nextSeq + 1 }

def Dialogue.log (d : Dialogue) (sent : List Sent) : Dialogue := { d with sent := d.sent ++ sent }

def prepare (d : Dialogue) (message : String) (model : Option String) : Prepared × Dialogue :=
  let conversation :=
    if model.isSome then { d.conversation with modelId := model } else d.conversation
  let memory := loadConversationMemory conversation d.messages settings.historyMaxMessages
    settings.historyTokenBudget
  ({ question := message, history := memory.asMessages, modelChoice := conversation.modelId,
     contextClassification := conversation.contextClassification },
    { d with conversation }.addMessage true (plain message))

/-- Egress is decided on the whole conversation, not this turn alone. -/
def egressAllowed (prep : Prepared) (retrieval : RetrievalResult) : Bool :=
  settings.allowsEgress (mostSensitive [prep.contextClassification, retrieval.maxClassification])

/-- Record the most sensitive context this conversation has used. -/
def rememberContext (prep : Prepared) (retrieval : RetrievalResult) (conversation : Conversation) :
    Conversation :=
  match retrieval.maxClassification with
  | none => conversation
  | some current =>
      if mostSensitive [prep.contextClassification, some current] = prep.contextClassification then
        conversation
      else
        { conversation with
          contextClassification := mostSensitive [conversation.contextClassification, some current] }

def maybeSummarize (x : Exchange) (d : Dialogue) : Dialogue :=
  let older := olderMessages d.conversation d.messages
  if older = [] then d
  else
    let called := gatewayChat false (summaryPrompt older) x
    let d := d.log called.1
    match called.2 with
    | none => d
    | some (_, reply) =>
        { d with
          conversation := foldSummary d.conversation older (written (summaryPrompt older) reply) }

/-- What a knowledge turn meets. -/
structure KnowledgeTurn where
  /-- what retrieval finds; `none` when it fails -/
  found : Option RetrievalResult
  judge : Exchange := {}
  first : Exchange := {}
  second : Exchange := {}
  summariser : Exchange := {}

inductive TurnRoute where
  /-- a greeting or a refusal -/
  | fixed (text : String)
  /-- a tool other than the search, or a search that failed -/
  | tool (message : String)
  /-- `search_internal_docs`, with what it retrieved and the department asked for -/
  | search (chunks : List RetrievedChunk) (department : Option String)
  | knowledge (turn : KnowledgeTurn)

/-- The chunks the search tool lists. -/
def listed (chunks : List RetrievedChunk) (department : Option String) : List RetrievedChunk :=
  chunks.filter fun c => department.isNone || department == some c.department

/-- The data of the search tool. -/
def searchData (chunks : List RetrievedChunk) (department : Option String) : Value :=
  let hits := listed chunks department
  .obj
    [("hits", .arr (hits.map fun c => .obj
      [("title", .str c.title), ("ref", .str c.stableRef), ("department", .str c.department),
        ("text", .str c.context)])),
      ("count", .num (.int hits.length))]

/-- The message of a search turn: it lists the references of its hits. -/
def searchMessage (chunks : List RetrievedChunk) (department : Option String) : Text :=
  quoting (describeToolResult "search_internal_docs" (searchData chunks department))
    (listed chunks department)

/-- `/api/chat` after routing. -/
def chatKnowledge (prep : Prepared) (turn : KnowledgeTurn) (d : Dialogue) : Dialogue :=
  match turn.found with
  | none => d.addMessage false (plain "") .error
  | some found =>
      let review := reviewNearMisses settings grounding prep.question found turn.judge
      let retrieval := review.2
      let d := d.log review.1
      let d := { d with conversation := rememberContext prep retrieval d.conversation }
      let answered := answerFromKnowledge settings grounding prep.question prep.history retrieval
        (egressAllowed settings prep retrieval) turn.first turn.second
      let d := d.log answered.1
      match answered.2 with
      | none => d.addMessage false (plain "") .error
      | some text => maybeSummarize turn.summariser (d.addMessage false text)

/-- `/api/chat/stream` after routing. -/
def streamKnowledge (prep : Prepared) (turn : KnowledgeTurn) (d : Dialogue) : Dialogue :=
  match turn.found with
  | none => d.addMessage false (plain "") .error
  | some found =>
      let review := reviewNearMisses settings grounding prep.question found turn.judge
      let retrieval := review.2
      let d := d.log review.1
      let d := { d with conversation := rememberContext prep retrieval d.conversation }
      if retrieval.chunks = [] then d.addMessage false (plain grounding.clarifying)
      else
        let messages := buildMessages prep.question retrieval.chunks prep.history
          (0 < retrieval.admittedByReview)
        let called := gatewayChat (egressAllowed settings prep retrieval) messages turn.first
        let d := d.log called.1
        match called.2 with
        | none =>
            d.addMessage false (written messages turn.first.produced)
              (if turn.first.started then .partial_ else .error)
        | some (_, reply) =>
            let made := grounding.finalize reply retrieval.chunks
            let text := if made.abstained then grounding.clarifying else made.text
            maybeSummarize turn.summariser (d.addMessage false (written messages text))

/-- One request on the conversation. -/
inductive Turn where
  | chat (message : String) (model : Option String) (route : TurnRoute)
  | stream (message : String) (model : Option String) (route : TurnRoute)
  | switchModel (model : String)

def Dialogue.answer (knowledge : Prepared → KnowledgeTurn → Dialogue → Dialogue)
    (message : String) (model : Option String) (route : TurnRoute) (d : Dialogue) : Dialogue :=
  let started := prepare settings d message model
  match route with
  | .fixed text => started.2.addMessage false (plain text)
  | .tool message => started.2.addMessage false (plain message)
  | .search chunks department => started.2.addMessage false (searchMessage chunks department)
  | .knowledge turn => knowledge started.1 turn started.2

def Dialogue.step (d : Dialogue) : Turn → Dialogue
  | .chat message model route =>
      d.answer settings (chatKnowledge settings grounding) message model route
  | .stream message model route =>
      d.answer settings (streamKnowledge settings grounding) message model route
  | .switchModel model => { d with conversation := { d.conversation with modelId := some model } }

/-! ## Egress -/

variable {settings grounding}

/-- Every message list that reached a provider outside quotes only what may leave. -/
def SafelySent (settings : Settings) (sent : List Sent) : Prop :=
  ∀ s ∈ sent, s.target.dataEgress = true → MessagesWithin settings.MayLeave s.messages

theorem SafelySent.append {first second : List Sent} (one : SafelySent settings first)
    (two : SafelySent settings second) : SafelySent settings (first ++ second) := by
  intro s mem
  rcases List.mem_append.mp mem with inFirst | inSecond
  · exact one s inFirst
  · exact two s inSecond

/-- A call is safe when permission for egress is given only for messages that may leave. -/
theorem gatewayChat_safe {allowEgress : Bool} {messages : List ChatMessage}
    (may : allowEgress = true → MessagesWithin settings.MayLeave messages) (x : Exchange) :
    SafelySent settings (gatewayChat allowEgress messages x).1 := by
  intro s mem outside
  obtain ⟨target, reached, rfl⟩ := List.mem_map.mp mem
  have allowed := (List.mem_filter.mp reached).2
  apply may
  simpa [eligible, show target.dataEgress = true from outside] using allowed

theorem within_written {P : RetrievedChunk → Prop} {messages : List ChatMessage} {text : String}
    (prompt : MessagesWithin P messages) : (written messages text).Within P := by
  intro c mem
  obtain ⟨m, there, quoted⟩ := List.mem_flatMap.mp mem
  exact prompt m there c quoted

theorem reviewNearMisses_safe (question : String) (retrieval : RetrievalResult) (x : Exchange) :
    SafelySent settings (reviewNearMisses settings grounding question retrieval x).1 := by
  unfold reviewNearMisses
  split
  · intro s mem
    cases mem
  · apply gatewayChat_safe
    intro allowed
    exact within_gateReviewMessages (mayLeave_of_max allowed)

/-- The calls of an answer are safe when egress is allowed only for sources and a history
that may leave; then the answer may leave too. -/
theorem answerFromKnowledge_safe {question : String} {history : List ChatMessage}
    {retrieval : RetrievalResult} {allowEgress : Bool} {first second : Exchange}
    (sources : allowEgress = true → ∀ c ∈ retrieval.chunks, settings.MayLeave c)
    (past : allowEgress = true → MessagesWithin settings.MayLeave history) :
    SafelySent settings (answerFromKnowledge settings grounding question history retrieval
        allowEgress first second).1 ∧
      ∀ text, (answerFromKnowledge settings grounding question history retrieval allowEgress
        first second).2 = some text → allowEgress = true → text.Within settings.MayLeave := by
  have prompt : ∀ reviewed, allowEgress = true → MessagesWithin settings.MayLeave
      (buildMessages question retrieval.chunks history reviewed) :=
    fun _ allowed => within_buildMessages (sources allowed) (past allowed)
  unfold answerFromKnowledge
  split
  · refine ⟨fun s mem => absurd mem List.not_mem_nil, ?_⟩
    intro text same _
    rw [← Option.some.inj same]
    exact within_plain _
  dsimp only
  have firstSafe := gatewayChat_safe (prompt (0 < retrieval.admittedByReview)) first
  have secondSafe := gatewayChat_safe (prompt (0 < retrieval.admittedByReview)) second
  split
  · exact ⟨firstSafe, fun _ same => nomatch same⟩
  · rename_i model reply replied
    -- which of the two answers is meant does not matter: both quote the prompt
    generalize (if (grounding.finalize reply retrieval.chunks).abstained = true then _ else _ :
      Finalized) = answer
    split
    · refine ⟨firstSafe, ?_⟩
      intro text same allowed
      rw [← Option.some.inj same]
      exact within_written (prompt _ allowed)
    · split
      · refine ⟨firstSafe.append secondSafe, ?_⟩
        intro text same allowed
        rw [← Option.some.inj same]
        exact within_written (prompt _ allowed)
      · refine ⟨firstSafe.append secondSafe, ?_⟩
        intro text same allowed
        rw [← Option.some.inj same]
        exact within_written (prompt _ allowed)

/-! ## The invariant -/

/-- What is stored may leave unless the record keeps the conversation on the box, and
everything sent outside could leave. -/
structure Contained (settings : Settings) (d : Dialogue) : Prop where
  stored : settings.allowsEgress d.conversation.contextClassification = true →
    StoredWithin settings.MayLeave d.conversation d.messages
  sent : SafelySent settings d.sent

namespace Contained

variable {d : Dialogue}

theorem addMessage (inv : Contained settings d) {fromUser : Bool} {content : Text}
    (may : settings.allowsEgress d.conversation.contextClassification = true →
      content.Within settings.MayLeave) (status : MessageStatus) :
    Contained settings (d.addMessage fromUser content status) := by
  refine ⟨?_, inv.sent⟩
  intro allowed
  have before := inv.stored allowed
  refine ⟨before.summary, ?_⟩
  intro m mem
  rcases List.mem_append.mp mem with old | new
  · exact before.messages m old
  · rw [List.mem_singleton.mp new]
    exact may allowed

theorem log (inv : Contained settings d) {sent : List Sent} (safe : SafelySent settings sent) :
    Contained settings (d.log sent) :=
  ⟨inv.stored, inv.sent.append safe⟩

/-- Another row of the same texts, recorded to restrict at least as much. -/
theorem restricted (inv : Contained settings d) {conversation : Conversation}
    (summary : conversation.summary = d.conversation.summary)
    (level : settings.allowsEgress conversation.contextClassification = true →
      settings.allowsEgress d.conversation.contextClassification = true) :
    Contained settings { d with conversation } := by
  refine ⟨?_, inv.sent⟩
  intro allowed
  have before := inv.stored (level allowed)
  exact ⟨by rw [summary]; exact before.summary, before.messages⟩

end Contained

open Classification in
/-- The record after a turn restricts as much as the one before and the turn's context. -/
theorem level_rememberContext {prep : Prepared} {retrieval : RetrievalResult}
    {conversation : Conversation}
    (current : prep.contextClassification = conversation.contextClassification) :
    level (rememberContext prep retrieval conversation).contextClassification =
      max (level conversation.contextClassification) (level retrieval.maxClassification) := by
  unfold rememberContext
  cases held : retrieval.maxClassification with
  | none => exact (Nat.max_zero _).symm
  | some c =>
      dsimp only
      split
      · rename_i covered
        rw [← current, ← level_mostSensitive_pair, covered]
      · exact level_mostSensitive_pair _ _

theorem rememberContext_summary {prep : Prepared} {retrieval : RetrievalResult}
    {conversation : Conversation} :
    (rememberContext prep retrieval conversation).summary = conversation.summary := by
  unfold rememberContext
  cases retrieval.maxClassification with
  | none => rfl
  | some c =>
      dsimp only
      split <;> rfl

/-- Egress is allowed exactly when record and context may leave; then the record after
the turn may leave too. -/
theorem egressAllowed_iff {prep : Prepared} {retrieval : RetrievalResult}
    {conversation : Conversation}
    (current : prep.contextClassification = conversation.contextClassification) :
    egressAllowed settings prep retrieval = true ↔
      settings.allowsEgress (rememberContext prep retrieval conversation).contextClassification =
        true := by
  rw [egressAllowed, allowsEgress_iff, allowsEgress_iff, level_mostSensitive_pair,
    level_rememberContext current, current]

theorem chunks_mayLeave {prep : Prepared} {retrieval : RetrievalResult}
    (allowed : egressAllowed settings prep retrieval = true) :
    ∀ c ∈ retrieval.chunks, settings.MayLeave c := by
  apply mayLeave_of_max
  refine allowsEgress_of_level_le ?_ allowed
  rw [level_mostSensitive_pair]
  exact Nat.le_max_right _ _

theorem record_mayLeave {prep : Prepared} {retrieval : RetrievalResult}
    (allowed : egressAllowed settings prep retrieval = true) :
    settings.allowsEgress prep.contextClassification = true := by
  refine allowsEgress_of_level_le ?_ allowed
  rw [level_mostSensitive_pair]
  exact Nat.le_max_left _ _

theorem maybeSummarize_contained {d : Dialogue} (inv : Contained settings d) (x : Exchange) :
    Contained settings (maybeSummarize x d) := by
  unfold maybeSummarize
  dsimp only
  split
  · exact inv
  · have kept : SafelySent settings (gatewayChat false
        (summaryPrompt (olderMessages d.conversation d.messages)) x).1 :=
      gatewayChat_safe (fun impossible => absurd impossible Bool.false_ne_true) x
    split
    · exact inv.log kept
    · refine ⟨?_, (inv.log kept).sent⟩
      intro allowed
      have stored := inv.stored allowed
      apply within_foldSummary stored
      apply within_written
      exact within_summaryPrompt fun m mem => stored.messages m (mem_olderMessages mem)

/-- Preparing a turn keeps the invariant, and its history may leave when the record may. -/
theorem prepare_contained {d : Dialogue} (inv : Contained settings d) (message : String)
    (model : Option String) :
    Contained settings (prepare settings d message model).2 ∧
      (prepare settings d message model).1.contextClassification =
        (prepare settings d message model).2.conversation.contextClassification ∧
      (prepare settings d message model).2.conversation.contextClassification =
        d.conversation.contextClassification ∧
      (settings.allowsEgress d.conversation.contextClassification = true →
        MessagesWithin settings.MayLeave (prepare settings d message model).1.history) := by
  have same : ∀ {conversation : Conversation},
      (if model.isSome then { conversation with modelId := model } else
        conversation).contextClassification = conversation.contextClassification ∧
      (if model.isSome then { conversation with modelId := model } else conversation).summary =
        conversation.summary := by
    intro conversation
    split <;> exact ⟨rfl, rfl⟩
  have switched := inv.restricted same.2 (by rw [same.1]; exact id)
  refine ⟨switched.addMessage (fun _ => within_plain _) _, rfl, same.1, ?_⟩
  intro allowed
  apply within_history
  apply switched.stored
  rw [same.1]
  exact allowed

section Knowledge

variable {d : Dialogue} {prep : Prepared} {retrieval : RetrievalResult}

/-- Recording the context keeps the invariant. -/
theorem remember_contained (inv : Contained settings d)
    (current : prep.contextClassification = d.conversation.contextClassification) :
    Contained settings
      { d with conversation := rememberContext prep retrieval d.conversation } := by
  apply inv.restricted rememberContext_summary
  intro allowed
  rw [← current]
  exact record_mayLeave ((egressAllowed_iff current).mpr allowed)

/-- **A knowledge turn, streamed or not, keeps the invariant.** -/
theorem chatKnowledge_contained (inv : Contained settings d)
    (current : prep.contextClassification = d.conversation.contextClassification)
    (past : settings.allowsEgress d.conversation.contextClassification = true →
      MessagesWithin settings.MayLeave prep.history) (turn : KnowledgeTurn) :
    Contained settings (chatKnowledge settings grounding prep turn d) := by
  unfold chatKnowledge
  split
  · exact inv.addMessage (fun _ => within_plain _) _
  · rename_i found _
    dsimp only
    generalize reviewed : reviewNearMisses settings grounding prep.question found turn.judge = review
    have judged : SafelySent settings review.1 := reviewed ▸ reviewNearMisses_safe _ _ _
    have remembered : Contained settings { d.log review.1 with
        conversation := rememberContext prep review.2 d.conversation } :=
      remember_contained (inv.log judged) current
    have history : egressAllowed settings prep review.2 = true →
        MessagesWithin settings.MayLeave prep.history := by
      intro allowed
      apply past
      rw [← current]
      exact record_mayLeave allowed
    have answered : SafelySent settings (answerFromKnowledge settings grounding prep.question
          prep.history review.2 (egressAllowed settings prep review.2) turn.first turn.second).1 ∧ _ :=
      answerFromKnowledge_safe chunks_mayLeave history
    split
    · exact (remembered.log answered.1).addMessage (fun _ => within_plain _) _
    · rename_i text replied
      apply maybeSummarize_contained
      refine (remembered.log answered.1).addMessage ?_ _
      intro allowed
      exact answered.2 text replied ((egressAllowed_iff current).mpr allowed)

theorem streamKnowledge_contained (inv : Contained settings d)
    (current : prep.contextClassification = d.conversation.contextClassification)
    (past : settings.allowsEgress d.conversation.contextClassification = true →
      MessagesWithin settings.MayLeave prep.history) (turn : KnowledgeTurn) :
    Contained settings (streamKnowledge settings grounding prep turn d) := by
  unfold streamKnowledge
  split
  · exact inv.addMessage (fun _ => within_plain _) _
  · rename_i found _
    dsimp only
    generalize reviewed : reviewNearMisses settings grounding prep.question found turn.judge = review
    have judged : SafelySent settings review.1 := reviewed ▸ reviewNearMisses_safe _ _ _
    have remembered : Contained settings { d.log review.1 with
        conversation := rememberContext prep review.2 d.conversation } :=
      remember_contained (inv.log judged) current
    split
    · exact remembered.addMessage (fun _ => within_plain _) _
    · have prompt : egressAllowed settings prep review.2 = true → MessagesWithin settings.MayLeave
          (buildMessages prep.question review.2.chunks prep.history
            (0 < review.2.admittedByReview)) := by
        intro allowed
        apply within_buildMessages (chunks_mayLeave allowed)
        apply past
        rw [← current]
        exact record_mayLeave allowed
      have called := remembered.log (gatewayChat_safe prompt turn.first)
      -- what the model wrote quotes the prompt, whole or cut off
      have text : ∀ t, settings.allowsEgress
            (rememberContext prep review.2 d.conversation).contextClassification = true →
          (written (buildMessages prep.question review.2.chunks prep.history
            (0 < review.2.admittedByReview)) t).Within settings.MayLeave :=
        fun _ allowed => within_written (prompt ((egressAllowed_iff current).mpr allowed))
      split
      · exact called.addMessage (text _) _
      · exact maybeSummarize_contained (called.addMessage (text _) _) _

end Knowledge

/-! ## Runs -/

/-- A search turn lists only chunks that may leave, unless the conversation is kept on the
box already; every other turn is. -/
def Dialogue.Discreet (settings : Settings) (d : Dialogue) : Turn → Prop
  | .chat _ _ (.search chunks department) | .stream _ _ (.search chunks department) =>
      settings.allowsEgress d.conversation.contextClassification = true →
        ∀ c ∈ listed chunks department, settings.MayLeave c
  | _ => True

/-- What a turn does when its knowledge route keeps the invariant. -/
theorem answer_contained {knowledge : Prepared → KnowledgeTurn → Dialogue → Dialogue}
    (route_contained : ∀ {d : Dialogue} {prep : Prepared}, Contained settings d →
      prep.contextClassification = d.conversation.contextClassification →
      (settings.allowsEgress d.conversation.contextClassification = true →
        MessagesWithin settings.MayLeave prep.history) →
      ∀ turn, Contained settings (knowledge prep turn d))
    {d : Dialogue} (inv : Contained settings d) (message : String) (model : Option String)
    (route : TurnRoute)
    (discreet : ∀ chunks department, route = .search chunks department →
      settings.allowsEgress d.conversation.contextClassification = true →
        ∀ c ∈ listed chunks department, settings.MayLeave c) :
    Contained settings (d.answer settings knowledge message model route) := by
  obtain ⟨started, cached, record, past⟩ := prepare_contained inv message model
  cases route with
  | fixed text => exact started.addMessage (fun _ => within_plain _) _
  | tool text => exact started.addMessage (fun _ => within_plain _) _
  | search chunks department =>
      refine started.addMessage ?_ _
      intro allowed
      rw [record] at allowed
      exact within_quoting.mpr (discreet chunks department rfl allowed)
  | knowledge turn =>
      apply route_contained started cached
      rw [record]
      exact past

theorem step_contained {d : Dialogue} (inv : Contained settings d) (turn : Turn)
    (discreet : d.Discreet settings turn) :
    Contained settings (d.step settings grounding turn) := by
  cases turn with
  | chat message model route =>
      apply answer_contained chatKnowledge_contained inv
      rintro chunks department rfl
      exact discreet
  | stream message model route =>
      apply answer_contained streamKnowledge_contained inv
      rintro chunks department rfl
      exact discreet
  | switchModel model => exact inv.restricted rfl id

/-- **While search turns list only what the record admits, nothing above the limit leaves
the box over a whole conversation.** -/
theorem nothing_leaks {settings : Settings} {grounding : Grounding} {conversation : Conversation}
    {turns : List Turn} {d : Dialogue} (fresh : conversation.summary = none)
    (run : Run (Guarded (Dialogue.Discreet settings) (StepOf (Dialogue.step settings grounding)))
      { conversation } turns d) :
    ∀ s ∈ d.sent, s.target.dataEgress = true → MessagesWithin settings.MayLeave s.messages := by
  have start : Contained settings { conversation } := by
    refine ⟨fun _ => ⟨?_, fun m mem => absurd mem List.not_mem_nil⟩,
      fun s mem => absurd mem List.not_mem_nil⟩
    intro summary held
    rw [fresh] at held
    cases held
  have kept : Contained settings d := by
    refine run.invariant ?_ start
    rintro before turn after ⟨discreet, rfl⟩ inv
    exact step_contained inv turn discreet
  exact kept.sent

/-! ## Poles -/

def poleChunk (docKey locator : String) (classification : Classification) : RetrievedChunk :=
  { docKey, version := 1, title := docKey, department := "finance", classification, locator,
    content := "text", context := "text", docUpdatedAt := "2025-01-01" }

/-- A handbook anyone may read, and a confidential memo. -/
def poleHandbook : RetrievedChunk := poleChunk "KB-HB-001" "VPN" .public_

def poleMemo : RetrievedChunk := poleChunk "KB-FIN-001" "Layoffs in May" .confidential

def poleCloud : Target := { id := "cloud", dataEgress := true }

def poleGrounding : Grounding where
  finalize text _ := { text, cited := true, abstained := false }
  notCovered _ := false
  admitted _ _ := []
  clarifying := ABSTAIN

def poleConversation : Conversation := { id := 0, userId := "U001" }

/-- A search, then a question answered from the handbook. -/
def poleTurns (searched : List RetrievedChunk) : List Turn :=
  [.chat "search the memos" none (.search searched none),
    .chat "how do I get a VPN?" none (.knowledge
      { found := some { chunks := [poleHandbook] },
        first := { invoked := [poleCloud], reply := some (poleCloud, "Ask IT [1].") } })]

/-- Pole: a search turn lists a confidential memo and records nothing; the next prompt sends
its locator outside. -/
theorem listed_reference_leaks :
    ∃ s ∈ ((poleTurns [poleMemo]).foldl (Dialogue.step {} poleGrounding)
        { conversation := poleConversation }).sent,
      s.target.dataEgress = true ∧ ∃ m ∈ s.messages,
        m.content.text = "I found 1 passage(s): KB-FIN-001@v1#Layoffs in May." ∧
          ∃ c ∈ m.content.quotes, c.classification = .confidential := by
  decide +kernel

/-- The dialogue after a search that lists the handbook. -/
def poleDialogue : Dialogue :=
  (poleTurns [poleHandbook]).foldl (Dialogue.step {} poleGrounding)
    { conversation := poleConversation }

theorem nothing_leaks_pole :
    (∃ s ∈ poleDialogue.sent, s.target.dataEgress = true) ∧
      ∀ s ∈ poleDialogue.sent, s.target.dataEgress = true →
        MessagesWithin (Settings.MayLeave {}) s.messages := by
  have run : Run (Guarded (Dialogue.Discreet {}) (StepOf (Dialogue.step {} poleGrounding)))
      { conversation := poleConversation } (poleTurns [poleHandbook]) poleDialogue := by
    refine .cons ⟨?_, rfl⟩ (.cons ⟨?_, rfl⟩ (.nil _))
    · intro _ c mem
      rw [List.mem_singleton.mp mem]
      rfl
    · exact trivial
  exact ⟨by decide +kernel, nothing_leaks rfl run⟩

end OpsAssist
