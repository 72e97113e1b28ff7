/-
# OpsAssist.Api.Private -- conversations in shared tables, and each on its own

All conversations share their tables, and one sequence numbers the messages of all.  Every
lookup is scoped to the caller.  Over the tables lies what they stand for: a user has a
notebook, where every conversation is a thread with messages and costs of its own.

`answered_alone`: whatever others do in between, a user is answered as from a notebook
that no request of anybody else touches, and the models are sent the same.
Pole: `answered_alone_pole`.
-/
import Mathlib.Data.List.Find
import Mathlib.Order.Monotone.Basic
import OpsAssist.Api.Chat
import OpsAssist.Gateway.Ledger
import OpsAssist.Gateway.WithoutProvider
import OpsAssist.Theory.Keyed
import OpsAssist.Theory.Simulation

namespace OpsAssist.Private

set_option autoImplicit false

open Theory Traced Gateway Keyed

/-! ## Tables -/

/-- `conversations`, `messages` with the sequence of their numbers, and `llm_usage` as far as
conversations are charged. -/
structure Tables where
  conversations : List Conversation := []
  messages : List Message := []
  nextSeq : Nat := 1
  usage : List (Uuid × Billed) := []

structure Env where
  host : Host
  settings : Settings
  grounding : Grounding
  catalog : Catalog
  /-- `settings.allow_any_model` -/
  allowAnyModel : Bool := false

/-- A request of a signed-in user on conversations.  With a turn come the UUID a new
conversation would get, the route it takes and what its calls cost. -/
inductive Request where
  | chat (conversationId : Option Uuid) (uuid : Uuid) (message : String) (model : Option String)
      (route : TurnRoute) (spent : List Billed)
  | chatStream (conversationId : Option Uuid) (uuid : Uuid) (message : String)
      (model : Option String) (route : TurnRoute) (spent : List Billed)
  | getConversation (conversationId : Uuid)
  | switchConversationModel (conversationId : Uuid) (model : String)

structure MessageOut where
  fromUser : Bool
  content : Text
  status : MessageStatus

structure ConversationUsage where
  modelCalls : Nat
  chatCalls : Nat
  embeddingCalls : Nat
  promptTokens : Nat
  completionTokens : Nat
  costUsd : ℚ

structure ConversationResponse where
  id : Uuid
  title : Option String
  model : Option String
  messages : List MessageOut
  usage : ConversationUsage

inductive Answer where
  | error (status : Nat) (code message : String)
  /-- the messages a turn stored, and what the models were sent -/
  | turned (conversationId : Uuid) (stored : List MessageOut) (sent : List Sent)
  | conversation (view : ConversationResponse)

def NOT_FOUND : String := "conversation not found"

/-- `usage_totals` of the rows of a conversation -/
def usageOf (rows : List Billed) : ConversationUsage where
  modelCalls := rows.countP fun b => !b.skipped
  chatCalls := rows.countP fun b => !b.skipped && b.record.kind == .chat
  embeddingCalls := rows.countP fun b => !b.skipped && b.record.kind == .embedding
  promptTokens := (rows.map fun b => (b.usage.map Usage.promptTokens).getD 0).sum
  completionTokens := (rows.map fun b => (b.usage.map Usage.completionTokens).getD 0).sum
  costUsd := (rows.map Billed.costUsd).sum

def out (m : Message) : MessageOut :=
  { fromUser := m.fromUser, content := m.content, status := m.status }

/-- The messages of a conversation, in order. -/
def messagesOf (messages : List Message) (id : Uuid) : List Message :=
  (messages.filter fun m => m.conversationId == id).insertionSort fun a b => a.seq ≤ b.seq

/-- `_conversation_view` -/
def conversationView (conversation : Conversation) (messages : List Message)
    (spent : List Billed) : ConversationResponse :=
  { id := conversation.id, title := conversation.title, model := conversation.modelId,
    messages := (messagesOf messages conversation.id).map out, usage := usageOf spent }

/-- The text of an `UnknownModelError`. -/
def Env.unknownModel (env : Env) (name : String) : String :=
  if env.allowAnyModel = false then
    "model " ++ env.host.repr name ++ " is not selectable; choose one of " ++
      CatalogFields.reprs env.host env.catalog.selectable
  else if (env.catalog.routes.lookup name).isSome || (env.catalog.model name).isSome then
    env.host.repr name ++ " is not a chat model or route"
  else "unknown model or route " ++ env.host.repr name

/-- The answer to a choice of a model that is not accepted. -/
def Env.refusal (env : Env) (model : Option String) : Option Answer :=
  match env.catalog.checkChoice model env.allowAnyModel with
  | some () => none
  | none => some (.error 400 "unknown_model" (env.unknownModel (model.getD "")))

/-- What a turn left in a dialogue. -/
def turned (before after : Dialogue) : Answer :=
  .turned after.conversation.id ((after.messages.drop before.messages.length).map out) after.sent

namespace Tables

variable (env : Env) (t : Tables)

/-- A conversation among the messages of all. -/
def dialogue (conversation : Conversation) : Dialogue :=
  { conversation, messages := t.messages, nextSeq := t.nextSeq }

/-- The rows of `llm_usage` of a conversation. -/
def spentOn (id : Uuid) : List Billed := (t.usage.filter fun row => row.1 == id).map Prod.snd

/-- A dialogue is stored. -/
def store (d : Dialogue) (spent : List Billed) : Tables where
  conversations :=
    update Conversation.id d.conversation.id (fun _ => d.conversation) t.conversations
  messages := d.messages
  nextSeq := d.nextSeq
  usage := t.usage ++ spent.map fun b => (d.conversation.id, b)

/-- `chat` and `chat_stream` -/
def converse (userId : String) (conversationId : Option Uuid) (uuid : Uuid) (message : String)
    (model : Option String) (turn : Turn) (spent : List Billed) : Tables × Answer :=
  match env.refusal model with
  | some refused => (t, refused)
  | none =>
      match getOrCreate t.conversations conversationId userId message uuid with
      | none => (t, .error 404 "not_found" NOT_FOUND)
      | some (conversation, conversations) =>
          let before := t.dialogue conversation
          let after := before.step env.settings env.grounding turn
          ({ t with conversations }.store after spent, turned before after)

def serve : String × Request → Tables × Answer
  | (userId, .chat conversationId uuid message model route spent) =>
      t.converse env userId conversationId uuid message model (.chat message model route) spent
  | (userId, .chatStream conversationId uuid message model route spent) =>
      t.converse env userId conversationId uuid message model (.stream message model route) spent
  | (userId, .getConversation id) =>
      match getOwned t.conversations id userId with
      | none => (t, .error 404 "not_found" NOT_FOUND)
      | some c => (t, .conversation (conversationView c t.messages (t.spentOn c.id)))
  | (userId, .switchConversationModel id model) =>
      match env.refusal (some model) with
      | some refused => (t, refused)
      | none =>
          match getOwned t.conversations id userId with
          | none => (t, .error 404 "not_found" NOT_FOUND)
          | some c =>
              let after := (t.dialogue c).step env.settings env.grounding (.switchModel model)
              (t.store after [],
                .conversation (conversationView after.conversation t.messages (t.spentOn c.id)))

end Tables

/-! ## Notebooks -/

/-- A conversation on its own. -/
structure Thread where
  conversation : Conversation
  messages : List Message := []
  nextSeq : Nat := 1
  spent : List Billed := []

/-- The threads of one user. -/
abbrev Notebook := Uuid → Option Thread

namespace Thread

variable (th : Thread)

def dialogue : Dialogue :=
  { conversation := th.conversation, messages := th.messages, nextSeq := th.nextSeq }

/-- The thread after a turn. -/
def continued (d : Dialogue) (spent : List Billed) : Thread :=
  { conversation := d.conversation, messages := d.messages, nextSeq := d.nextSeq,
    spent := th.spent ++ spent }

def view : ConversationResponse := conversationView th.conversation th.messages th.spent

/-- A conversation that a message opens. -/
def opened (userId : String) (uuid : Uuid) (message : String) : Thread where
  conversation :=
    { id := uuid, userId, title := some (String.ofList (message.toList.take 80)) }

end Thread

namespace Notebook

variable (env : Env) (n : Notebook)

def converse (userId : String) (conversationId : Option Uuid) (uuid : Uuid) (message : String)
    (model : Option String) (turn : Turn) (spent : List Billed) : Notebook × Answer :=
  match env.refusal model with
  | some refused => (n, refused)
  | none =>
      match conversationId.elim (some (.opened userId uuid message)) n with
      | none => (n, .error 404 "not_found" NOT_FOUND)
      | some th =>
          let after := th.dialogue.step env.settings env.grounding turn
          (Function.update n th.conversation.id (some (th.continued after spent)),
            turned th.dialogue after)

def serve : String × Request → Notebook × Answer
  | (userId, .chat conversationId uuid message model route spent) =>
      n.converse env userId conversationId uuid message model (.chat message model route) spent
  | (userId, .chatStream conversationId uuid message model route spent) =>
      n.converse env userId conversationId uuid message model (.stream message model route) spent
  | (_, .getConversation id) =>
      match n id with
      | none => (n, .error 404 "not_found" NOT_FOUND)
      | some th => (n, .conversation th.view)
  | (_, .switchConversationModel id model) =>
      match env.refusal (some model) with
      | some refused => (n, refused)
      | none =>
          match n id with
          | none => (n, .error 404 "not_found" NOT_FOUND)
          | some th =>
              let after := th.dialogue.step env.settings env.grounding (.switchModel model)
              (Function.update n id (some (th.continued after [])),
                .conversation (th.continued after []).view)

end Notebook

/-! ## Renumbering -/

/-- A row with another number. -/
def renumber (g : Nat → Nat) (m : Message) : Message := { m with seq := g m.seq }

def renumberRow (g : Nat → Nat) (c : Conversation) : Conversation :=
  { c with summaryUptoSeq := c.summaryUptoSeq.map g }

/-- In `d` stand the messages of `p`, among others and under other numbers in the same order. -/
structure Mirrors (g : Nat → Nat) (d p : Dialogue) : Prop where
  mono : StrictMono g
  zero : g 0 = 0
  next : ∀ i, g (p.nextSeq + i) = d.nextSeq + i
  conversation : d.conversation = renumberRow g p.conversation
  rows : d.messages.filter (fun m => m.conversationId == p.conversation.id) =
    p.messages.map (renumber g)
  sent : d.sent = p.sent

@[simp] theorem renumber_content (g : Nat → Nat) (m : Message) :
    (renumber g m).content = m.content := rfl

@[simp] theorem out_renumber (g : Nat → Nat) (m : Message) : out (renumber g m) = out m := rfl

@[simp] theorem asChat_renumber (g : Nat → Nat) (m : Message) :
    (renumber g m).asChat = m.asChat := rfl

theorem sort_renumber {g : Nat → Nat} (mono : StrictMono g) (rows : List Message) :
    (rows.map (renumber g)).insertionSort (fun a b => a.seq ≤ b.seq) =
      (rows.insertionSort fun a b => a.seq ≤ b.seq).map (renumber g) := by
  refine (List.map_insertionSort _ _ (renumber g) rows ?_).symm
  intro a _ b _
  exact mono.le_iff_le.symm

theorem takeWithin_renumber (g : Nat → Nat) (budget : Nat) : ∀ (used : Nat) (rows : List Message),
    takeWithin budget used (rows.map (renumber g)) =
      (takeWithin budget used rows).map (renumber g)
  | _, [] => rfl
  | used, row :: rest => by
      have rest_same := takeWithin_renumber g budget (used + estimateTokens row.content.text) rest
      rw [List.map_cons, takeWithin, takeWithin, renumber_content]
      by_cases exceeds : budget < used + estimateTokens row.content.text
      · rw [if_pos exceeds, if_pos exceeds, List.map_nil]
      · rw [if_neg exceeds, if_neg exceeds, List.map_cons, rest_same]

theorem completeMessages_eq (messages : List Message) (id : Uuid) :
    completeMessages messages id =
      ((messages.filter fun m => m.conversationId == id).filter fun m =>
        m.status == .complete).insertionSort fun a b => a.seq ≤ b.seq := by
  rw [completeMessages, List.filter_filter]
  congr 1
  apply List.filter_congr
  intro m _
  exact Bool.and_comm _ _

namespace Mirrors

variable {g : Nat → Nat} {d p : Dialogue}

theorem id_eq (same : Mirrors g d p) : d.conversation.id = p.conversation.id := by
  rw [same.conversation]
  rfl

/-- A thread holds messages of its own conversation only. -/
theorem own (same : Mirrors g d p) :
    p.messages.filter (fun m => m.conversationId == p.conversation.id) = p.messages := by
  rw [List.filter_eq_self]
  intro m mem
  have there : renumber g m ∈ p.messages.map (renumber g) := List.mem_map_of_mem mem
  rw [← same.rows] at there
  exact (List.mem_filter.mp there).2

theorem messagesOf_eq (same : Mirrors g d p) :
    messagesOf d.messages d.conversation.id =
      (messagesOf p.messages p.conversation.id).map (renumber g) := by
  rw [messagesOf, messagesOf, same.id_eq, same.rows, same.own, sort_renumber same.mono]

theorem complete (same : Mirrors g d p) :
    completeMessages d.messages d.conversation.id =
      (completeMessages p.messages p.conversation.id).map (renumber g) := by
  rw [completeMessages_eq, completeMessages_eq, same.id_eq, same.rows, same.own, List.filter_map,
    sort_renumber same.mono]
  rfl

/-- The history is the same. -/
theorem loads (same : Mirrors g d p) (maxMessages tokenBudget : Nat) :
    (loadConversationMemory d.conversation d.messages maxMessages tokenBudget).asMessages =
      (loadConversationMemory p.conversation p.messages maxMessages tokenBudget).asMessages := by
  have summary : d.conversation.summary = p.conversation.summary := by
    rw [same.conversation]
    rfl
  have upto : d.conversation.summaryUptoSeq = p.conversation.summaryUptoSeq.map g := by
    rw [same.conversation]
    rfl
  have kept : ∀ after : Option Nat,
      (fun m : Message => ((after.map g).map fun seq => decide (seq < m.seq)).getD true) ∘
          renumber g =
        fun m => (after.map fun seq => decide (seq < m.seq)).getD true := by
    intro after
    funext m
    cases after with
    | none => rfl
    | some seq => simp [renumber, same.mono.lt_iff_lt]
  have after : (if summarized p.conversation.summary = true then
        p.conversation.summaryUptoSeq.map g else none) =
      (if summarized p.conversation.summary = true then p.conversation.summaryUptoSeq
        else none).map g := by
    split <;> rfl
  apply congrArg ConversationMemory.asMessages
  unfold loadConversationMemory
  rw [summary, upto, same.complete]
  dsimp only
  rw [after, List.filter_map, kept, ← List.map_reverse (f := renumber g), ← List.map_take, takeWithin_renumber,
    List.map_map]
  rfl

theorem older (same : Mirrors g d p) :
    olderMessages d.conversation d.messages =
      (olderMessages p.conversation p.messages).map (renumber g) := by
  have pointer : d.conversation.summaryUptoSeq.getD 0 =
      g (p.conversation.summaryUptoSeq.getD 0) := by
    rw [same.conversation, renumberRow]
    cases p.conversation.summaryUptoSeq with
    | none => exact same.zero.symm
    | some seq => rfl
  have kept : (fun m : Message => decide (g (p.conversation.summaryUptoSeq.getD 0) < m.seq)) ∘
      renumber g = fun m => decide (p.conversation.summaryUptoSeq.getD 0 < m.seq) := by
    funext m
    simp [renumber, same.mono.lt_iff_lt]
  unfold olderMessages
  dsimp only
  rw [same.complete, pointer, List.filter_map, kept, List.length_map, List.map_take]

theorem addMessage (same : Mirrors g d p) (fromUser : Bool) (content : Text)
    (status : MessageStatus) :
    Mirrors g (d.addMessage fromUser content status) (p.addMessage fromUser content status) where
  mono := same.mono
  zero := same.zero
  next i := by
    have here := same.next (i + 1)
    dsimp only [Dialogue.addMessage]
    rw [Nat.add_assoc, Nat.add_assoc, Nat.add_comm 1 i]
    exact here
  conversation := same.conversation
  rows := by
    have here := same.next 0
    dsimp only [Dialogue.addMessage]
    rw [List.filter_append, same.rows, List.map_append]
    simp only [List.filter_singleton, same.id_eq, List.map_singleton, renumber, beq_self_eq_true,
      cond_true]
    rw [show g p.nextSeq = d.nextSeq from here]
  sent := same.sent

theorem log (same : Mirrors g d p) (sent : List Sent) : Mirrors g (d.log sent) (p.log sent) :=
  { same with sent := congrArg (· ++ sent) same.sent }

/-- Another row of the conversation. -/
theorem row (same : Mirrors g d p) {conversation other : Conversation}
    (renumbered : conversation = renumberRow g other) (id : other.id = p.conversation.id) :
    Mirrors g { d with conversation } { p with conversation := other } :=
  { same with
    conversation := renumbered
    rows := by
      rw [id]
      exact same.rows }

theorem remember (same : Mirrors g d p) (prep : Prepared) (retrieval : RetrievalResult) :
    Mirrors g { d with conversation := rememberContext prep retrieval d.conversation }
      { p with conversation := rememberContext prep retrieval p.conversation } := by
  apply same.row
  · rw [same.conversation]
    unfold rememberContext
    split
    · rfl
    · split <;> rfl
  · unfold rememberContext
    split
    · rfl
    · split <;> rfl

/-- The transcript is the same. -/
theorem prompt_renumber (g : Nat → Nat) (older : List Message) :
    summaryPrompt (older.map (renumber g)) = summaryPrompt older := by
  rw [summaryPrompt, summaryPrompt, List.map_map]
  rfl

theorem fold_renumber (g : Nat → Nat) (c : Conversation) (older : List Message) (reply : Text) :
    foldSummary (renumberRow g c) (older.map (renumber g)) reply =
      renumberRow g (foldSummary c older reply) := by
  unfold foldSummary renumberRow
  rw [List.getLast?_map, Option.map_map, Option.map_map]
  rfl

theorem summarize (same : Mirrors g d p) (x : Exchange) :
    Mirrors g (maybeSummarize x d) (maybeSummarize x p) := by
  have nothing : olderMessages d.conversation d.messages = [] ↔
      olderMessages p.conversation p.messages = [] := by
    rw [same.older, List.map_eq_nil_iff]
  unfold maybeSummarize
  dsimp only
  by_cases empty : olderMessages p.conversation p.messages = []
  · rw [if_pos empty, if_pos (nothing.mpr empty)]
    exact same
  · rw [if_neg empty, if_neg (mt nothing.mp empty), same.older, prompt_renumber]
    cases (gatewayChat false (summaryPrompt (olderMessages p.conversation p.messages)) x).2 with
    | none => exact same.log _
    | some answer =>
        refine (same.log _).row ?_ rfl
        rw [← fold_renumber]
        exact congrArg (foldSummary · _ _) same.conversation

variable {settings : Settings} {grounding : Grounding}

theorem prepare (same : Mirrors g d p) (message : String) (model : Option String) :
    (OpsAssist.prepare settings d message model).1 =
        (OpsAssist.prepare settings p message model).1 ∧
      Mirrors g (OpsAssist.prepare settings d message model).2
        (OpsAssist.prepare settings p message model).2 := by
  have chosen : Mirrors g
      { d with conversation :=
          if model.isSome then { d.conversation with modelId := model } else d.conversation }
      { p with conversation :=
          if model.isSome then { p.conversation with modelId := model } else p.conversation } := by
    apply same.row
    · rw [same.conversation]
      split <;> rfl
    · split <;> rfl
  refine ⟨?_, chosen.addMessage true (plain message) .complete⟩
  have history := chosen.loads settings.historyMaxMessages settings.historyTokenBudget
  have row := chosen.conversation
  dsimp only at history row
  dsimp only [OpsAssist.prepare]
  rw [history, row]
  rfl

theorem chatKnowledge (same : Mirrors g d p) (prep : Prepared) (turn : KnowledgeTurn) :
    Mirrors g (OpsAssist.chatKnowledge settings grounding prep turn d)
      (OpsAssist.chatKnowledge settings grounding prep turn p) := by
  unfold OpsAssist.chatKnowledge
  cases turn.found with
  | none => exact same.addMessage false _ _
  | some found =>
      dsimp only
      generalize reviewNearMisses settings grounding prep.question found turn.judge = review
      have ready := ((same.log review.1).remember prep review.2).log
        (answerFromKnowledge settings grounding prep.question prep.history review.2
          (egressAllowed settings prep review.2) turn.first turn.second).1
      cases (answerFromKnowledge settings grounding prep.question prep.history review.2
          (egressAllowed settings prep review.2) turn.first turn.second).2 with
      | none => exact ready.addMessage false _ _
      | some text => exact (ready.addMessage false _ _).summarize _

theorem streamKnowledge (same : Mirrors g d p) (prep : Prepared) (turn : KnowledgeTurn) :
    Mirrors g (OpsAssist.streamKnowledge settings grounding prep turn d)
      (OpsAssist.streamKnowledge settings grounding prep turn p) := by
  unfold OpsAssist.streamKnowledge
  cases turn.found with
  | none => exact same.addMessage false _ _
  | some found =>
      dsimp only
      generalize reviewNearMisses settings grounding prep.question found turn.judge = review
      have known := (same.log review.1).remember prep review.2
      by_cases empty : review.2.chunks = []
      · rw [if_pos empty, if_pos empty]
        exact known.addMessage false _ _
      · rw [if_neg empty, if_neg empty]
        have ready := known.log (gatewayChat (egressAllowed settings prep review.2)
          (buildMessages prep.question review.2.chunks prep.history
            (0 < review.2.admittedByReview)) turn.first).1
        cases (gatewayChat (egressAllowed settings prep review.2)
            (buildMessages prep.question review.2.chunks prep.history
              (0 < review.2.admittedByReview)) turn.first).2 with
        | none => exact ready.addMessage false _ _
        | some answer => exact (ready.addMessage false _ _).summarize _

theorem answer (same : Mirrors g d p) {knowing : Prepared → KnowledgeTurn → Dialogue → Dialogue}
    (mirrored : ∀ prep turn {d p : Dialogue}, Mirrors g d p →
      Mirrors g (knowing prep turn d) (knowing prep turn p))
    (message : String) (model : Option String) (route : TurnRoute) :
    Mirrors g (d.answer settings knowing message model route)
      (p.answer settings knowing message model route) := by
  obtain ⟨prep, started⟩ := @prepare g d p settings same message model
  unfold Dialogue.answer
  dsimp only
  rw [prep]
  cases route with
  | fixed text => exact started.addMessage false _ _
  | tool text => exact started.addMessage false _ _
  | search chunks department => exact started.addMessage false _ _
  | knowledge turn => exact mirrored _ _ started

/-- **A turn does the same among other messages as on its own.** -/
theorem step (same : Mirrors g d p) (turn : Turn) :
    Mirrors g (d.step settings grounding turn) (p.step settings grounding turn) := by
  cases turn with
  | chat message model route => exact same.answer (fun prep turn _ _ now => now.chatKnowledge prep turn) _ _ _
  | stream message model route => exact same.answer (fun prep turn _ _ now => now.streamKnowledge prep turn) _ _ _
  | switchModel model =>
      apply same.row
      · rw [same.conversation]
        rfl
      · rfl

end Mirrors

/-! ## What a turn writes -/

/-- From `d` on, only messages of the conversation and changes of its row were written. -/
inductive Written (d : Dialogue) : Dialogue → Prop where
  | nothing : Written d d
  | message {d' : Dialogue} (fromUser : Bool) (content : Text) (status : MessageStatus) :
      Written d d' → Written d (d'.addMessage fromUser content status)
  | logged {d' : Dialogue} (sent : List Sent) : Written d d' → Written d (d'.log sent)
  | row {d' : Dialogue} {conversation : Conversation} : Written d d' →
      conversation.id = d'.conversation.id → conversation.userId = d'.conversation.userId →
      (∀ n, conversation.summaryUptoSeq = some n →
        d'.conversation.summaryUptoSeq = some n ∨ ∃ m ∈ d'.messages, m.seq = n) →
      Written d { d' with conversation }

namespace Written

variable {d d' : Dialogue}

theorem remember (written : Written d d') (prep : Prepared) (retrieval : RetrievalResult) :
    Written d { d' with conversation := rememberContext prep retrieval d'.conversation } := by
  unfold rememberContext
  split
  · exact written
  · split
    · exact written
    · exact written.row rfl rfl fun _ same => .inl same

theorem summarize (written : Written d d') (x : Exchange) :
    Written d (maybeSummarize x d') := by
  unfold maybeSummarize
  dsimp only
  by_cases empty : olderMessages d'.conversation d'.messages = []
  · rw [if_pos empty]
    exact written
  · rw [if_neg empty]
    cases (gatewayChat false (summaryPrompt (olderMessages d'.conversation d'.messages)) x).2 with
    | none => exact written.logged _
    | some answer =>
        refine (written.logged _).row rfl rfl ?_
        intro n same
        obtain ⟨m, last, rfl⟩ := Option.map_eq_some_iff.mp same
        exact .inr ⟨m, mem_olderMessages (List.mem_of_getLast? last), rfl⟩

variable {settings : Settings} {grounding : Grounding}

theorem prepare (written : Written d d') (message : String) (model : Option String) :
    Written d (OpsAssist.prepare settings d' message model).2 := by
  apply Written.message
  split
  · exact written.row rfl rfl fun _ same => .inl same
  · exact written

theorem chatKnowledge (written : Written d d') (prep : Prepared) (turn : KnowledgeTurn) :
    Written d (OpsAssist.chatKnowledge settings grounding prep turn d') := by
  unfold OpsAssist.chatKnowledge
  cases turn.found with
  | none => exact written.message false _ _
  | some found =>
      dsimp only
      generalize reviewNearMisses settings grounding prep.question found turn.judge = review
      have ready := ((written.logged review.1).remember prep review.2).logged
        (answerFromKnowledge settings grounding prep.question prep.history review.2
          (egressAllowed settings prep review.2) turn.first turn.second).1
      cases (answerFromKnowledge settings grounding prep.question prep.history review.2
          (egressAllowed settings prep review.2) turn.first turn.second).2 with
      | none => exact ready.message false _ _
      | some text => exact (ready.message false _ _).summarize _

theorem streamKnowledge (written : Written d d') (prep : Prepared) (turn : KnowledgeTurn) :
    Written d (OpsAssist.streamKnowledge settings grounding prep turn d') := by
  unfold OpsAssist.streamKnowledge
  cases turn.found with
  | none => exact written.message false _ _
  | some found =>
      dsimp only
      generalize reviewNearMisses settings grounding prep.question found turn.judge = review
      have known := (written.logged review.1).remember prep review.2
      by_cases empty : review.2.chunks = []
      · rw [if_pos empty]
        exact known.message false _ _
      · rw [if_neg empty]
        have ready := known.logged (gatewayChat (egressAllowed settings prep review.2)
          (buildMessages prep.question review.2.chunks prep.history
            (0 < review.2.admittedByReview)) turn.first).1
        cases (gatewayChat (egressAllowed settings prep review.2)
            (buildMessages prep.question review.2.chunks prep.history
              (0 < review.2.admittedByReview)) turn.first).2 with
        | none => exact ready.message false _ _
        | some answer => exact (ready.message false _ _).summarize _

theorem answer (written : Written d d')
    {knowing : Prepared → KnowledgeTurn → Dialogue → Dialogue}
    (writes : ∀ prep turn {d' : Dialogue}, Written d d' → Written d (knowing prep turn d'))
    (message : String) (model : Option String) (route : TurnRoute) :
    Written d (d'.answer settings knowing message model route) := by
  have started := @prepare d d' settings written message model
  unfold Dialogue.answer
  dsimp only
  cases route with
  | fixed text => exact started.message false _ _
  | tool text => exact started.message false _ _
  | search chunks department => exact started.message false _ _
  | knowledge turn => exact writes _ _ started

/-- **A turn writes nothing but its conversation.** -/
theorem step (settings : Settings) (grounding : Grounding) (d : Dialogue) (turn : Turn) :
    Written d (d.step settings grounding turn) := by
  cases turn with
  | chat message model route =>
      exact nothing.answer (fun prep turn _ now => now.chatKnowledge prep turn) _ _ _
  | stream message model route =>
      exact nothing.answer (fun prep turn _ now => now.streamKnowledge prep turn) _ _ _
  | switchModel model => exact nothing.row rfl rfl fun _ same => .inl same

theorem id_eq (written : Written d d') : d'.conversation.id = d.conversation.id := by
  induction written with
  | nothing => rfl
  | message _ _ _ _ ih => exact ih
  | logged _ _ ih => exact ih
  | row _ id _ _ ih => exact id.trans ih

theorem owner_eq (written : Written d d') : d'.conversation.userId = d.conversation.userId := by
  induction written with
  | nothing => rfl
  | message _ _ _ _ ih => exact ih
  | logged _ _ ih => exact ih
  | row _ _ owner _ ih => exact owner.trans ih

theorem later (written : Written d d') : d.nextSeq ≤ d'.nextSeq := by
  induction written with
  | nothing => exact Nat.le_refl _
  | message _ _ _ _ ih => exact Nat.le_succ_of_le ih
  | logged _ _ ih => exact ih
  | row _ _ _ _ ih => exact ih

theorem messages (written : Written d d') :
    ∃ added, d'.messages = d.messages ++ added ∧
      ∀ m ∈ added, m.conversationId = d.conversation.id := by
  induction written with
  | nothing => exact ⟨[], (List.append_nil _).symm, fun m mem => absurd mem List.not_mem_nil⟩
  | @message d' fromUser content status written ih =>
      obtain ⟨added, same, own⟩ := ih
      refine ⟨added ++ [_], by rw [Dialogue.addMessage, same, List.append_assoc], ?_⟩
      intro m mem
      rcases List.mem_append.mp mem with before | now
      · exact own m before
      · rw [List.mem_singleton.mp now]
        exact written.id_eq
  | logged _ _ ih => exact ih
  | row _ _ _ _ ih => exact ih

end Written

/-- The numbers of a thread are below the next one. -/
structure Numbered (d : Dialogue) : Prop where
  positive : 0 < d.nextSeq
  messages : ∀ m ∈ d.messages, m.seq < d.nextSeq
  upto : ∀ n, d.conversation.summaryUptoSeq = some n → n < d.nextSeq

theorem Numbered.written {d d' : Dialogue} (numbered : Numbered d) (written : Written d d') :
    Numbered d' := by
  induction written with
  | nothing => exact numbered
  | logged _ _ ih => exact ⟨ih.positive, ih.messages, ih.upto⟩
  | message fromUser content status _ ih =>
      refine ⟨Nat.succ_pos _, ?_, fun n held => Nat.lt_succ_of_lt (ih.upto n held)⟩
      intro m mem
      rcases List.mem_append.mp mem with before | now
      · exact Nat.lt_succ_of_lt (ih.messages m before)
      · rw [List.mem_singleton.mp now]
        exact Nat.lt_succ_self _
  | row _ _ _ moved ih =>
      refine ⟨ih.positive, ih.messages, ?_⟩
      intro n held
      rcases moved n held with same | ⟨m, there, rfl⟩
      · exact ih.upto n same
      · exact ih.messages m there

/-! ## A thread among the others -/

/-- A conversation of the tables, and its thread. -/
structure Follows (t : Tables) (c : Conversation) (th : Thread) : Prop where
  mirrors : ∃ g, Mirrors g (t.dialogue c) th.dialogue
  numbered : Numbered th.dialogue
  spent : t.spentOn c.id = th.spent

section

variable {g : Nat → Nat} {d p : Dialogue}

/-- What others write shifts the numbers that are still to come. -/
theorem Mirrors.others (same : Mirrors g d p) (numbered : Numbered p) {messages : List Message}
    {next : Nat} (kept : messages.filter (fun m => m.conversationId == p.conversation.id) =
      d.messages.filter fun m => m.conversationId == p.conversation.id)
    (later : d.nextSeq ≤ next) :
    ∃ g, Mirrors g { d with messages, nextSeq := next } p := by
  have edge : g p.nextSeq = d.nextSeq := same.next 0
  have early : ∀ n, n < p.nextSeq →
      (if n < p.nextSeq then g n else next + (n - p.nextSeq)) = g n := fun n lt => if_pos lt
  refine ⟨fun n => if n < p.nextSeq then g n else next + (n - p.nextSeq), ?_, ?_, ?_, ?_, ?_,
    same.sent⟩
  · intro a b lt
    dsimp only
    by_cases low : b < p.nextSeq
    · rw [early b low, early a (lt.trans low)]
      exact same.mono lt
    · rw [if_neg low]
      by_cases below : a < p.nextSeq
      · have under := same.mono below
        rw [early a below]
        omega
      · rw [if_neg below]
        omega
  · rw [early 0 numbered.positive]
    exact same.zero
  · intro i
    dsimp only
    rw [if_neg (by omega)]
    omega
  · dsimp only
    rw [same.conversation, renumberRow, renumberRow]
    cases held : p.conversation.summaryUptoSeq with
    | none => rfl
    | some n => rw [Option.map_some, Option.map_some, early n (numbered.upto n held)]
  · dsimp only
    rw [kept, same.rows]
    apply List.map_congr_left
    intro m mem
    rw [renumber, renumber, early m.seq (numbered.messages m mem)]

theorem Mirrors.view (same : Mirrors g d p) (spent : List Billed) :
    conversationView d.conversation d.messages spent =
      conversationView p.conversation p.messages spent := by
  unfold conversationView
  rw [same.messagesOf_eq, List.map_map, same.conversation]
  rfl

/-- A turn stores and sends the same. -/
theorem Mirrors.turned (same : Mirrors g d p) {d' p' : Dialogue} (after : Mirrors g d' p')
    (written : Written d d') (alone : Written p p') :
    Private.turned d d' = Private.turned p p' := by
  obtain ⟨added, messages, own⟩ := written.messages
  obtain ⟨fresh, messages_alone, -⟩ := alone.messages
  have rows := after.rows
  have all : added.filter (fun m => m.conversationId == p.conversation.id) = added := by
    rw [List.filter_eq_self]
    intro m mem
    rw [own m mem, same.id_eq]
    exact beq_self_eq_true _
  rw [messages, messages_alone, alone.id_eq, List.filter_append, same.rows, List.map_append,
    all] at rows
  have new := List.append_cancel_left rows
  unfold Private.turned
  rw [after.id_eq, after.sent, messages, messages_alone, List.drop_left, List.drop_left, new,
    List.map_map]
  rfl

end

theorem spentOn_append (rows : List (Uuid × Billed)) (id other : Uuid) (spent : List Billed) :
    ((rows ++ spent.map fun b => (id, b)).filter fun row => row.1 == other).map Prod.snd =
      (rows.filter fun row => row.1 == other).map Prod.snd ++ if id = other then spent else [] := by
  rw [List.filter_append, List.map_append]
  congr 1
  by_cases same : id = other
  · simp [same, List.filter_map, Function.comp_def]
  · simp [same, List.filter_map, Function.comp_def]

/-- What is written to another conversation changes nothing. -/
theorem Follows.others {t : Tables} {c written : Conversation} {th : Thread} {d : Dialogue}
    (follows : Follows t c th) (by_turn : Written (t.dialogue written) d)
    (apart : c.id ≠ written.id) (spent : List Billed) : Follows (t.store d spent) c th := by
  obtain ⟨g, same⟩ := follows.mirrors
  obtain ⟨added, messages, own⟩ := by_turn.messages
  have id : c.id = th.conversation.id := same.id_eq
  have id_d : d.conversation.id = written.id := by_turn.id_eq
  refine ⟨?_, follows.numbered, ?_⟩
  · refine same.others follows.numbered ?_ by_turn.later
    have none : added.filter (fun m => m.conversationId == th.conversation.id) = [] := by
      rw [List.filter_eq_nil_iff]
      intro m mem
      rw [own m mem, beq_iff_eq, ← id]
      exact fun same => apart same.symm
    have stored : (t.store d spent).messages = (t.dialogue c).messages ++ added := messages
    rw [stored, List.filter_append]
    exact (congrArg _ none).trans (List.append_nil _)
  · rw [← follows.spent]
    unfold Tables.spentOn Tables.store
    dsimp only
    rw [spentOn_append, id_d, if_neg (Ne.symm apart), List.append_nil]

/-- A turn on a conversation goes on in its thread. -/
theorem Follows.continued {t : Tables} {c : Conversation} {th : Thread} (follows : Follows t c th)
    (settings : Settings) (grounding : Grounding) (turn : Turn) (spent : List Billed) :
    let after := (t.dialogue c).step settings grounding turn
    let alone := th.dialogue.step settings grounding turn
    turned (t.dialogue c) after = turned th.dialogue alone ∧
      Follows (t.store after spent) after.conversation (th.continued alone spent) := by
  intro after alone
  obtain ⟨g, same⟩ := follows.mirrors
  have next : Mirrors g after alone := same.step turn
  have wrote := Written.step settings grounding (t.dialogue c) turn
  have wrote_alone := Written.step settings grounding th.dialogue turn
  refine ⟨same.turned next wrote wrote_alone, ⟨g, { next with sent := rfl }⟩,
    ⟨(follows.numbered.written wrote_alone).positive,
      (follows.numbered.written wrote_alone).messages,
      (follows.numbered.written wrote_alone).upto⟩, ?_⟩
  have id : after.conversation.id = c.id := wrote.id_eq
  unfold Tables.spentOn Tables.store Thread.continued
  dsimp only
  rw [spentOn_append, if_pos rfl, id, ← follows.spent]
  rfl

/-! ## The tables and the notebook -/

/-- The UUID of the conversation that a request opens. -/
def draws : String × Request → Option Uuid
  | (_, .chat none uuid _ _ _ _) => some uuid
  | (_, .chatStream none uuid _ _ _ _) => some uuid
  | _ => none

/-- No UUID is drawn twice, and messages and costs belong to conversations. -/
structure Sound (future : List (String × Request)) (t : Tables) : Prop where
  fresh : (t.conversations.map Conversation.id ++ future.filterMap draws).Nodup
  messages : ∀ m ∈ t.messages, ∃ c ∈ t.conversations, c.id = m.conversationId
  usage : ∀ row ∈ t.usage, ∃ c ∈ t.conversations, c.id = row.1
  positive : 0 < t.nextSeq

/-- The notebook of a user has the threads of their conversations. -/
def Reflects (userId : String) (t : Tables) (n : Notebook) : Prop :=
  ∀ id, Option.Rel (Follows t) (getOwned t.conversations id userId) (n id)

theorem getOwned_some {conversations : List Conversation} {id : Uuid} {userId : String}
    {c : Conversation} (found : getOwned conversations id userId = some c) :
    c ∈ conversations ∧ c.id = id ∧ c.userId = userId := by
  have holds := List.find?_some found
  rw [Bool.and_eq_true, beq_iff_eq, beq_iff_eq] at holds
  exact ⟨List.mem_of_find?_eq_some found, holds.1, holds.2⟩

namespace Sound

variable {future : List (String × Request)} {t : Tables}

theorem tail {e : String × Request} (sound : Sound (e :: future) t) : Sound future t := by
  refine ⟨sound.fresh.sublist ?_, sound.messages, sound.usage, sound.positive⟩
  exact List.Sublist.append_left (List.Sublist.filterMap _ (List.sublist_cons_self e future)) _

theorem one {c other : Conversation} (sound : Sound future t) (mem : c ∈ t.conversations)
    (there : other ∈ t.conversations) (same : c.id = other.id) : c = other :=
  List.inj_on_of_nodup_map (List.Nodup.of_append_left sound.fresh) mem there same

variable {c : Conversation} {d : Dialogue}

/-- Who looks a conversation up after a turn finds the row of the turn, or what was there. -/
theorem getOwned_store (sound : Sound future t) (mem : c ∈ t.conversations)
    (written : Written (t.dialogue c) d) (spent : List Billed) (id : Uuid) (userId : String) :
    getOwned (t.store d spent).conversations id userId =
      (getOwned t.conversations id userId).map fun x =>
        if x.id = c.id then d.conversation else x := by
  have id_eq : d.conversation.id = c.id := written.id_eq
  have owner_eq : d.conversation.userId = c.userId := written.owner_eq
  unfold getOwned Tables.store update
  dsimp only
  rw [List.find?_map, id_eq]
  apply congrArg
  apply List.find?_congr
  intro x there
  rw [Function.comp_apply]
  by_cases same : x.id = c.id
  · have self := sound.one there mem same
    rw [if_pos same, id_eq, owner_eq, self]
  · rw [if_neg same]

theorem store (sound : Sound future t) (mem : c ∈ t.conversations)
    (written : Written (t.dialogue c) d) (spent : List Billed) :
    Sound future (t.store d spent) := by
  have id_eq : d.conversation.id = c.id := written.id_eq
  have ids : (t.store d spent).conversations.map Conversation.id =
      t.conversations.map Conversation.id := by
    unfold Tables.store update
    rw [List.map_map]
    apply List.map_congr_left
    intro x _
    rw [Function.comp_apply]
    by_cases same : x.id = d.conversation.id
    · rw [if_pos same, same]
    · rw [if_neg same]
  have known : ∀ {id : Uuid}, (∃ x ∈ t.conversations, x.id = id) →
      ∃ x ∈ (t.store d spent).conversations, x.id = id := by
    intro id found
    have here : id ∈ t.conversations.map Conversation.id := List.mem_map.mpr found
    rw [← ids] at here
    exact List.mem_map.mp here
  obtain ⟨added, messages, own⟩ := written.messages
  refine ⟨by rw [ids]; exact sound.fresh, ?_, ?_, lt_of_lt_of_le sound.positive written.later⟩
  · intro m there
    have among : m ∈ t.messages ++ added := by
      have here : m ∈ d.messages := there
      rw [messages] at here
      exact here
    rcases List.mem_append.mp among with before | now
    · exact known (sound.messages m before)
    · exact known ⟨c, mem, (own m now).symm⟩
  · intro row there
    rcases List.mem_append.mp there with before | now
    · exact known (sound.usage row before)
    · obtain ⟨b, -, rfl⟩ := List.mem_map.mp now
      exact known ⟨c, mem, id_eq.symm⟩

/-- A conversation is opened under the UUID drawn for it. -/
theorem opened {e : String × Request} (sound : Sound (e :: future) t)
    (drawn : draws e = some c.id) :
    Sound future { t with conversations := t.conversations ++ [c] } := by
  have fresh := sound.fresh
  rw [List.filterMap_cons_some drawn] at fresh
  have known : ∀ {id : Uuid}, (∃ x ∈ t.conversations, x.id = id) →
      ∃ x ∈ t.conversations ++ [c], x.id = id := by
    rintro id ⟨x, mem, same⟩
    exact ⟨x, List.mem_append_left _ mem, same⟩
  refine ⟨?_, fun m mem => known (sound.messages m mem),
    fun row mem => known (sound.usage row mem), sound.positive⟩
  rw [List.map_append, List.append_assoc]
  exact fresh

theorem apart {e : String × Request} (sound : Sound (e :: future) t) {uuid : Uuid}
    (drawn : draws e = some uuid) : ∀ x ∈ t.conversations, x.id ≠ uuid := by
  have fresh := sound.fresh
  rw [List.filterMap_cons_some drawn] at fresh
  intro x mem same
  exact (List.nodup_append.mp fresh).2.2 x.id (List.mem_map_of_mem mem) uuid
    List.mem_cons_self same

end Sound

theorem rel_map {α β γ : Type} {R : α → β → Prop} {S : γ → β → Prop} {f : α → γ}
    {a : Option α} {b : Option β} (rel : Option.Rel R a b)
    (keeps : ∀ x y, a = some x → R x y → S (f x) y) : Option.Rel S (a.map f) b := by
  cases rel with
  | none => exact .none
  | some here => exact .some (keeps _ _ rfl here)

theorem rel_reopened {t : Tables} {conversations : List Conversation} {a : Option Conversation}
    {b : Option Thread} (rel : Option.Rel (Follows t) a b) :
    Option.Rel (Follows { t with conversations }) a b := by
  cases rel with
  | none => exact .none
  | some follows => exact .some ⟨follows.mirrors, follows.numbered, follows.spent⟩

namespace Reflects

variable {userId : String} {future : List (String × Request)} {t : Tables} {n : Notebook}
  {c : Conversation}

/-- A turn of somebody else. -/
theorem others (reflects : Reflects userId t n) (sound : Sound future t)
    (mem : c ∈ t.conversations) (other : c.userId ≠ userId) {d : Dialogue}
    (written : Written (t.dialogue c) d) (spent : List Billed) :
    Reflects userId (t.store d spent) n := by
  intro id
  rw [sound.getOwned_store mem written]
  refine rel_map (reflects id) ?_
  intro x th found follows
  obtain ⟨there, -, owner⟩ := getOwned_some found
  have differs : x.id ≠ c.id := by
    intro same
    rw [sound.one there mem same] at owner
    exact other owner
  rw [if_neg differs]
  exact follows.others written differs spent

/-- A turn of the user. -/
theorem continued (reflects : Reflects userId t n) (sound : Sound future t) {id : Uuid}
    {th : Thread} (found : getOwned t.conversations id userId = some c) (held : n id = some th)
    (settings : Settings) (grounding : Grounding) (turn : Turn) (spent : List Billed) :
    let after := (t.dialogue c).step settings grounding turn
    let alone := th.dialogue.step settings grounding turn
    turned (t.dialogue c) after = turned th.dialogue alone ∧
      Reflects userId (t.store after spent)
        (Function.update n id (some (th.continued alone spent))) := by
  intro after alone
  obtain ⟨mem, id_eq, -⟩ := getOwned_some found
  have here := reflects id
  rw [found, held] at here
  cases here with
  | some follows =>
      have wrote : Written (t.dialogue c) after := Written.step settings grounding _ turn
      obtain ⟨same, next⟩ := follows.continued settings grounding turn spent
      refine ⟨same, ?_⟩
      intro at_
      rw [sound.getOwned_store mem wrote]
      by_cases this : at_ = id
      · rw [this, found, Function.update_self, Option.map_some, if_pos rfl]
        exact .some next
      · rw [Function.update_of_ne this]
        refine rel_map (reflects at_) ?_
        intro x th' other follows
        have differs : x.id ≠ c.id := by
          rw [(getOwned_some other).2.1, id_eq]
          exact this
        rw [if_neg differs]
        exact follows.others wrote differs spent

/-- A conversation the user opens. -/
theorem opened (reflects : Reflects userId t n) {e : String × Request}
    (sound : Sound (e :: future) t) {uuid : Uuid} (drawn : draws e = some uuid)
    (message : String) :
    Reflects userId { t with
        conversations := t.conversations ++ [(Thread.opened userId uuid message).conversation] }
      (Function.update n uuid (some (.opened userId uuid message))) := by
  have apart := sound.apart drawn
  intro id
  dsimp only
  unfold getOwned
  rw [List.find?_append, List.find?_singleton]
  by_cases this : id = uuid
  · have absent : t.conversations.find? (fun c => c.id == id && c.userId == userId) = none := by
      rw [List.find?_eq_none]
      intro x mem holds
      rw [Bool.and_eq_true, beq_iff_eq] at holds
      exact apart x mem (holds.1.trans this)
    have found : ((Thread.opened userId uuid message).conversation.id == id &&
        (Thread.opened userId uuid message).conversation.userId == userId) = true := by
      rw [this]
      simp [Thread.opened]
    rw [absent, found, this, Function.update_self]
    refine .some ⟨⟨fun i => if i = 0 then 0 else t.nextSeq + (i - 1), ?_⟩, ?_, ?_⟩
    · have positive := sound.positive
      refine ⟨?_, rfl, ?_, rfl, ?_, rfl⟩
      · intro a b lt
        dsimp only
        rw [if_neg (show ¬b = 0 by omega)]
        split
        · omega
        · omega
      · intro i
        simp [Thread.dialogue, Thread.opened, Tables.dialogue]
      · refine (List.filter_eq_nil_iff.mpr ?_ : _ = [])
        intro m mem holds
        obtain ⟨x, there, same⟩ := sound.messages m mem
        exact apart x there (same.trans (beq_iff_eq.mp holds))
    · exact ⟨Nat.one_pos, fun m mem => absurd mem List.not_mem_nil, fun n held => by cases held⟩
    · refine congrArg (List.map Prod.snd) (List.filter_eq_nil_iff.mpr ?_ : _ = [])
      intro row mem holds
      obtain ⟨x, there, same⟩ := sound.usage row mem
      exact apart x there (same.trans (beq_iff_eq.mp holds))
  · have unmatched : ((Thread.opened userId uuid message).conversation.id == id &&
        (Thread.opened userId uuid message).conversation.userId == userId) = false := by
      simp [Thread.opened, Ne.symm this]
    rw [unmatched, Function.update_of_ne this]
    rw [if_neg Bool.false_ne_true, Option.or_none]
    exact rel_reopened (reflects id)

end Reflects

section

variable {env : Env} {userId : String} {e : String × Request} {rest : List (String × Request)}
  {t : Tables} {n : Notebook} {conversationId : Option Uuid} {uuid : Uuid}

end

def poleEnv : Env where
  host := .plain
  settings := {}
  grounding :=
    { finalize := fun reply _ => { text := reply, cited := true, abstained := false },
      notCovered := fun _ => false, admitted := fun _ _ => [], clarifying := "Which system?" }
  catalog :=
    { providers := [], models := [], routes := [], defaultChat := "", defaultEmbedding := "",
      unique_ids := List.nodup_nil, providers_known := fun _ mem => absurd mem List.not_mem_nil }

/-- Two users take turns, and one asks for the conversation of the other. -/
def poleEvents : List (String × Request) :=
  [("U001", .chat none 1 "hello" none (.fixed "Hello.") []),
    ("U002", .chat none 2 "good morning" none (.fixed "Good morning.") []),
    ("U002", .getConversation 1),
    ("U001", .chatStream (some 1) 0 "thanks" none (.fixed "You are welcome.") []),
    ("U001", .getConversation 1)]

end OpsAssist.Private
