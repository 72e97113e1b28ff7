/-
# OpsAssist.Api.OneWay -- concurrent turns, and the record of what they used

Several turns run on one conversation, and their database statements interleave.  A
statement sees what is committed when it starts, and what a transaction sets is stored when
it commits.  An UPDATE may overtake another one here; the orders in which it waits for the
other's COMMIT are among these.

`record_one_way`: the record never goes down, covers all that was handed to a model, and
no turn lets out a history that may not leave -- while nobody records more than a turn
writes between its SELECT and its COMMIT, no message above the record a turn has read
appears before it reads the messages, and search turns and near-miss reviews keep within
the record.
`run_alone`: with no other turn in between, the statements of a turn do what `Dialogue.step`
does.
Pole: `record_overwritten`.
-/
import Mathlib.Logic.Relation
import OpsAssist.Api.Chat

namespace OpsAssist.OneWay

set_option autoImplicit false

open Theory Traced Classification

/-! ## Transactions -/

/-- What an UPDATE sets in the row of the conversation. -/
inductive Change where
  /-- `updated_at`, and the model when one was chosen -/
  | choose (model : Option String)
  | classify (record : Option Classification)
  | summarize (summary : Option Text) (upto : Option Nat)

def Change.apply : Change → Conversation → Conversation
  | .choose model, c => if model.isSome then { c with modelId := model } else c
  | .classify record, c => { c with contextClassification := record }
  | .summarize summary upto, c => { c with summary, summaryUptoSeq := upto }

/-- Where a turn stands, with the variables it needs from there on. -/
inductive Phase where
  /-- `_prepare`: SELECT the conversation -/
  | arrived
  /-- UPDATE the conversation; so many messages were committed when it was selected -/
  | found (conversation : Conversation) (seen : Nat)
  /-- SELECT the messages -/
  | touched (conversation : Conversation) (seen : Nat)
  /-- INSERT the user message -/
  | loaded (prep : Prepared)
  /-- COMMIT -/
  | stored (prep : Prepared)
  /-- the route, and what it retrieves -/
  | prepared (prep : Prepared)
  /-- `_remember_context`: SELECT the conversation, if there is something to record -/
  | retrieved (prep : Prepared) (turn : KnowledgeTurn) (retrieval : RetrievalResult)
  /-- UPDATE the conversation, if that changes it -/
  | compared (prep : Prepared) (turn : KnowledgeTurn) (retrieval : RetrievalResult)
      (conversation : Conversation)
  /-- COMMIT -/
  | recording (prep : Prepared) (turn : KnowledgeTurn) (retrieval : RetrievalResult)
      (conversation : Conversation)
  /-- the answering models -/
  | recorded (prep : Prepared) (turn : KnowledgeTurn) (retrieval : RetrievalResult)
  /-- `_save_assistant`: INSERT the reply -/
  | replied (reply : Text) (status : MessageStatus) (summariser : Option Exchange)
  /-- COMMIT, and summarise then -/
  | saved (summariser : Option Exchange)
  /-- `_maybe_summarize`: SELECT the conversation -/
  | answered (summariser : Exchange)
  /-- SELECT the messages, and the summarising model -/
  | reviewing (summariser : Exchange) (conversation : Conversation)
  /-- UPDATE the conversation -/
  | folding (folded : Conversation)
  | done

/-- One turn, and what its transaction has not committed yet. -/
structure Session where
  turn : Turn
  phase : Phase := .arrived
  changes : List Change := []
  inserts : List Message := []

/-- What is committed, what has left for a provider, and the turns under way.  An egress
decision is kept with the history it was made for. -/
structure Talk where
  conversation : Conversation
  messages : List Message := []
  nextSeq : Nat := 1
  sent : List Sent := []
  decisions : List (Bool × List ChatMessage) := []
  sessions : List Session := []

def Talk.log (t : Talk) (sent : List Sent) : Talk := { t with sent := t.sent ++ sent }

def Talk.record (t : Talk) : Nat := level t.conversation.contextClassification

def Session.to (s : Session) (phase : Phase) : Session := { s with phase }

/-- An INSERT takes the next number at once; the row is there after COMMIT. -/
def insert (t : Talk) (s : Session) (fromUser : Bool) (content : Text) (status : MessageStatus)
    (next : Phase) : Talk × Session :=
  ({ t with nextSeq := t.nextSeq + 1 },
    { s with
      phase := next,
      inserts := s.inserts ++
        [{ seq := t.nextSeq, conversationId := t.conversation.id, fromUser, content, status }] })

def commit (t : Talk) (s : Session) (next : Phase) : Talk × Session :=
  ({ t with
      conversation := s.changes.foldr Change.apply t.conversation,
      messages := t.messages ++ s.inserts },
    { s with phase := next, changes := [], inserts := [] })

/-! ## Statements -/

variable (settings : Settings) (grounding : Grounding)

def chosenModel : Turn → Option String
  | .chat _ model _ => model
  | .stream _ model _ => model
  | .switchModel model => some model

/-- What `_prepare` returns, of the row and the messages it has read. -/
def preparedOf (message : String) (model : Option String) (conversation : Conversation)
    (messages : List Message) : Prepared :=
  let chosen := (Change.choose model).apply conversation
  { question := message
    history := (loadConversationMemory chosen messages settings.historyMaxMessages
      settings.historyTokenBudget).asMessages
    modelChoice := chosen.modelId
    contextClassification := conversation.contextClassification }

/-- `_remember_context` returns at once. -/
def settled (prep : Prepared) (retrieval : RetrievalResult) : Bool :=
  match retrieval.maxClassification with
  | none => true
  | some current =>
      mostSensitive [prep.contextClassification, some current] = prep.contextClassification

/-- The reply of `/api/chat` on the knowledge path, and whether the turn summarises then. -/
def chatReply (prep : Prepared) (turn : KnowledgeTurn) (retrieval : RetrievalResult) :
    List Sent × Phase :=
  let called := answerFromKnowledge settings grounding prep.question prep.history retrieval
    (egressAllowed settings prep retrieval) turn.first turn.second
  (called.1,
    match called.2 with
    | none => .replied (plain "") .error none
    | some text => .replied text .complete (some turn.summariser))

/-- The reply of `/api/chat/stream`. -/
def streamReply (prep : Prepared) (turn : KnowledgeTurn) (retrieval : RetrievalResult) :
    List Sent × Phase :=
  if retrieval.chunks = [] then ([], .replied (plain grounding.clarifying) .complete none)
  else
    let messages := buildMessages prep.question retrieval.chunks prep.history
      (0 < retrieval.admittedByReview)
    let called := gatewayChat (egressAllowed settings prep retrieval) messages turn.first
    (called.1,
      match called.2 with
      | none => .replied (written messages turn.first.produced)
          (if turn.first.started then .partial_ else .error) none
      | some (_, reply) =>
          let made := grounding.finalize reply retrieval.chunks
          let text := if made.abstained then grounding.clarifying else made.text
          .replied (written messages text) .complete (some turn.summariser))

def replyOf : Turn → Prepared → KnowledgeTurn → RetrievalResult → List Sent × Phase
  | .stream _ _ _ => streamReply settings grounding
  | _ => chatReply settings grounding

/-- The turn takes its route. -/
def takeRoute (t : Talk) (s : Session) (prep : Prepared) : TurnRoute → Talk × Session
  | .fixed text => (t, s.to (.replied (plain text) .complete none))
  | .tool message => (t, s.to (.replied (plain message) .complete none))
  | .search chunks department =>
      (t, s.to (.replied (searchMessage chunks department) .complete none))
  | .knowledge turn =>
      match turn.found with
      | none => (t, s.to (.replied (plain "") .error none))
      | some found =>
          let review := reviewNearMisses settings grounding prep.question found turn.judge
          (t.log review.1, s.to (.retrieved prep turn review.2))

/-- The summary is made of what is committed now; the row was read before. -/
def summarize (t : Talk) (s : Session) (x : Exchange) (conversation : Conversation) :
    Talk × Session :=
  let older := olderMessages conversation t.messages
  if older = [] then (t, s.to .done)
  else
    let called := gatewayChat false (summaryPrompt older) x
    (t.log called.1,
      match called.2 with
      | none => s.to .done
      | some (_, reply) =>
          s.to (.folding (foldSummary conversation older (written (summaryPrompt older) reply))))

def routeOf : Turn → Option (String × TurnRoute)
  | .chat message _ route => some (message, route)
  | .stream message _ route => some (message, route)
  | .switchModel _ => none

/-- The next statement of a turn. -/
def advance (t : Talk) (s : Session) : Talk × Session :=
  match s.phase with
  | .arrived => (t, s.to (.found t.conversation t.messages.length))
  | .found conversation seen =>
      let updated := { s with changes := [.choose (chosenModel s.turn)] }
      match routeOf s.turn with
      | none => (t, updated.to (.saved none))
      | some _ => (t, updated.to (.touched conversation seen))
  | .touched conversation _ =>
      match routeOf s.turn with
      | none => (t, s.to .done)
      | some (message, _) =>
          (t, s.to (.loaded
            (preparedOf settings message (chosenModel s.turn) conversation t.messages)))
  | .loaded prep => insert t s true (plain prep.question) .complete (.stored prep)
  | .stored prep => commit t s (.prepared prep)
  | .prepared prep =>
      match routeOf s.turn with
      | none => (t, s.to .done)
      | some (_, route) => takeRoute settings grounding t s prep route
  | .retrieved prep turn retrieval =>
      if settled prep retrieval then (t, s.to (.recorded prep turn retrieval))
      else (t, s.to (.compared prep turn retrieval t.conversation))
  | .compared prep turn retrieval conversation =>
      let record := mostSensitive
        [conversation.contextClassification, retrieval.maxClassification]
      (t, { s with
        phase := .recording prep turn retrieval conversation,
        changes :=
          if record = conversation.contextClassification then [] else [.classify record] })
  | .recording prep turn retrieval _ => commit t s (.recorded prep turn retrieval)
  | .recorded prep turn retrieval =>
      let reply := replyOf settings grounding s.turn prep turn retrieval
      ({ t.log reply.1 with
          decisions := t.decisions ++ [(egressAllowed settings prep retrieval, prep.history)] },
        s.to reply.2)
  | .replied reply status summariser => insert t s false reply status (.saved summariser)
  | .saved summariser =>
      commit t s (match summariser with
        | none => .done
        | some x => .answered x)
  | .answered x => (t, s.to (.reviewing x t.conversation))
  | .reviewing x conversation => summarize t s x conversation
  | .folding folded =>
      (t, { s with
        phase := .saved none,
        changes := [.summarize folded.summary folded.summaryUptoSeq] })
  | .done => (t, s)

/-- A request arrives, a turn makes its next statement, or one ends early and is rolled back. -/
inductive Act where
  | request (turn : Turn)
  | advance (i : Nat)
  | abandon (i : Nat)

def Talk.step (t : Talk) : Act → Talk
  | .request turn => { t with sessions := t.sessions ++ [{ turn }] }
  | .advance i =>
      match t.sessions[i]? with
      | none => t
      | some s =>
          let next := OneWay.advance settings grounding t s
          { next.1 with sessions := t.sessions.set i next.2 }
  | .abandon i =>
      match t.sessions[i]? with
      | none => t
      | some s =>
          { t with sessions := t.sessions.set i { turn := s.turn, phase := .done } }

variable {settings grounding}

/-! ## What the models are handed -/

/-- The classification of a chunk is at most this high. -/
def AtMost (n : Nat) (c : RetrievedChunk) : Prop := level (some c.classification) ≤ n

instance (n : Nat) (c : RetrievedChunk) : Decidable (AtMost n c) :=
  inferInstanceAs (Decidable (_ ≤ _))

theorem AtMost.mono {n m : Nat} (le : n ≤ m) {c : RetrievedChunk} (low : AtMost n c) :
    AtMost m c := Nat.le_trans low le

theorem within_mono {n m : Nat} (le : n ≤ m) {t : Text} (low : t.Within (AtMost n)) :
    t.Within (AtMost m) := fun c mem => (low c mem).mono le

theorem messages_mono {n m : Nat} (le : n ≤ m) {messages : List ChatMessage}
    (low : MessagesWithin (AtMost n) messages) : MessagesWithin (AtMost m) messages :=
  fun message mem => within_mono le (low message mem)

/-- What a record that allows egress covers may leave. -/
theorem mayLeave_of_atMost {record : Option Classification}
    (allowed : settings.allowsEgress record = true) {c : RetrievedChunk}
    (low : AtMost (level record) c) : settings.MayLeave c :=
  allowsEgress_of_level_le low allowed

/-- Every message list quotes only chunks with the property. -/
def SentWithin (P : RetrievedChunk → Prop) (sent : List Sent) : Prop :=
  ∀ s ∈ sent, MessagesWithin P s.messages

theorem SentWithin.append {P : RetrievedChunk → Prop} {first second : List Sent}
    (one : SentWithin P first) (two : SentWithin P second) : SentWithin P (first ++ second) :=
  List.forall_mem_append.mpr ⟨one, two⟩

section Prompts

variable {P : RetrievedChunk → Prop}

theorem gatewayChat_within {allowEgress : Bool} {messages : List ChatMessage}
    (prompt : MessagesWithin P messages) (x : Exchange) :
    SentWithin P (gatewayChat allowEgress messages x).1 := by
  intro s mem
  obtain ⟨target, -, rfl⟩ := List.mem_map.mp mem
  exact prompt

/-- A judge is asked. -/
def Judged (settings : Settings) (found : RetrievalResult) (x : Exchange) : Prop :=
  found.chunks = [] ∧
    ∃ target ∈ x.invoked, eligible (settings.allowsEgress (maxClassification found.nearMisses))
      target = true

theorem reviewNearMisses_within {question : String} {found : RetrievalResult} {x : Exchange}
    (offered : Judged settings found x → ∀ c ∈ found.nearMisses, P c) :
    SentWithin P (reviewNearMisses settings grounding question found x).1 := by
  unfold reviewNearMisses
  by_cases passed : found.chunks ≠ [] ∨ found.nearMisses = []
  · rw [if_pos passed]
    exact nofun
  · rw [if_neg passed]
    intro s mem
    obtain ⟨target, reached, rfl⟩ := List.mem_map.mp mem
    obtain ⟨invoked, may⟩ := List.mem_filter.mp reached
    push Not at passed
    exact within_gateReviewMessages (offered ⟨passed.1, target, invoked, may⟩)

/-- An answer, if there is one, and the prompts it comes from. -/
theorem answerFromKnowledge_within {question : String} {history : List ChatMessage}
    {retrieval : RetrievalResult} {allowEgress : Bool} {first second : Exchange}
    (sources : ∀ c ∈ retrieval.chunks, P c) (past : MessagesWithin P history) :
    SentWithin P (answerFromKnowledge settings grounding question history retrieval
        allowEgress first second).1 ∧
      ∀ text, (answerFromKnowledge settings grounding question history retrieval allowEgress
        first second).2 = some text → text.Within P := by
  have prompt : ∀ reviewed, MessagesWithin P
      (buildMessages question retrieval.chunks history reviewed) :=
    fun _ => within_buildMessages sources past
  unfold answerFromKnowledge
  by_cases empty : retrieval.chunks = []
  · rw [if_pos empty]
    refine ⟨nofun, ?_⟩
    intro text same
    rw [← Option.some.inj same]
    exact within_plain _
  rw [if_neg empty]
  dsimp only
  have one := @gatewayChat_within _ allowEgress _ (prompt (0 < retrieval.admittedByReview)) first
  have two := @gatewayChat_within _ allowEgress _ (prompt (0 < retrieval.admittedByReview)) second
  split
  · exact ⟨one, nofun⟩
  · rename_i model reply replied
    generalize (if (grounding.finalize reply retrieval.chunks).abstained = true then _ else _ :
      Finalized) = answer
    split
    · refine ⟨one, ?_⟩
      intro text same
      rw [← Option.some.inj same]
      exact within_written (prompt _)
    · split
      · refine ⟨one.append two, ?_⟩
        intro text same
        rw [← Option.some.inj same]
        exact within_written (prompt _)
      · refine ⟨one.append two, ?_⟩
        intro text same
        rw [← Option.some.inj same]
        exact within_written (prompt _)

end Prompts

/-! ## The conditions -/

/-- What the next statement of a turn must meet. -/
def Fitting (settings : Settings) (t : Talk) (s : Session) : Phase → Prop
  | .touched conversation seen =>
      settings.allowsEgress conversation.contextClassification = true →
        ∀ m ∈ t.messages.drop seen, m.content.Within settings.MayLeave
  | .prepared _ =>
      match routeOf s.turn with
      | some (_, .search chunks department) => ∀ c ∈ listed chunks department, AtMost t.record c
      | some (_, .knowledge turn) =>
          match turn.found with
          | some found => Judged settings found turn.judge →
              ∀ c ∈ found.nearMisses, AtMost t.record c
          | none => True
      | _ => True
  | .recording _ _ retrieval conversation =>
      s.changes ≠ [] → t.record ≤
        max (level conversation.contextClassification) (level retrieval.maxClassification)
  | _ => True

instance decidableWithin (P : RetrievedChunk → Prop) [DecidablePred P] (t : Text) :
    Decidable (t.Within P) :=
  inferInstanceAs (Decidable (∀ c ∈ t.quotes, P c))

instance decidableMayLeave : DecidablePred settings.MayLeave := fun c =>
  inferInstanceAs (Decidable (settings.allowsEgress (some c.classification) = true))

instance decidableJudged (found : RetrievalResult) (x : Exchange) :
    Decidable (Judged settings found x) :=
  inferInstanceAs (Decidable (_ ∧ ∃ target ∈ x.invoked, _ = true))

instance decidableFitting (t : Talk) (s : Session) : ∀ phase, Decidable (Fitting settings t s phase)
  | .touched _ _ => inferInstanceAs (Decidable (_ = true → ∀ m ∈ _, Traced.Within _ _))
  | .prepared _ =>
      match asked : routeOf s.turn with
      | some (_, .search chunks department) =>
          decidable_of_iff (∀ c ∈ listed chunks department, AtMost t.record c)
            (by rw [Fitting, asked])
      | some (_, .knowledge turn) =>
          match found : turn.found with
          | some found' => decidable_of_iff (Judged settings found' turn.judge →
              ∀ c ∈ found'.nearMisses, AtMost t.record c) (by simp only [Fitting, asked, found])
          | none => isTrue (by simp only [Fitting, asked, found])
      | some (_, .fixed _) => isTrue (by rw [Fitting, asked]; trivial)
      | some (_, .tool _) => isTrue (by rw [Fitting, asked]; trivial)
      | none => isTrue (by rw [Fitting, asked]; trivial)
  | .recording _ _ retrieval conversation =>
      inferInstanceAs (Decidable (¬ _ = _ → _ ≤ _))
  | .arrived | .found _ _ | .loaded _ | .stored _ | .retrieved _ _ _ | .compared _ _ _ _
  | .recorded _ _ _ | .replied _ _ _ | .saved _ | .answered _ | .reviewing _ _ | .folding _
  | .done => isTrue trivial

/-- The turns stay out of each other's way. -/
def Orderly (settings : Settings) (t : Talk) : Act → Prop
  | .advance i =>
      match t.sessions[i]? with
      | some s => Fitting settings t s s.phase
      | none => True
  | _ => True

instance decidableOrderly (t : Talk) : ∀ act, Decidable (Orderly settings t act)
  | .advance i =>
      match held : t.sessions[i]? with
      | some s => decidable_of_iff (Fitting settings t s s.phase) (by rw [Orderly, held])
      | none => isTrue (by rw [Orderly, held]; trivial)
  | .request _ | .abandon _ => isTrue trivial

/-! ## The invariant -/

/-- A row and the messages committed when it was read. -/
structure Loaded (n : Nat) (messages : List Message) (conversation : Conversation) (seen : Nat) :
    Prop where
  record : level conversation.contextClassification ≤ n
  summary : ∀ x, conversation.summary = some x →
    x.Within (AtMost (level conversation.contextClassification))
  there : seen ≤ messages.length
  old : ∀ m ∈ messages.take seen,
    m.content.Within (AtMost (level conversation.contextClassification))

/-- What `_prepare` has read. -/
structure Read (settings : Settings) (n : Nat) (prep : Prepared) : Prop where
  record : level prep.contextClassification ≤ n
  low : MessagesWithin (AtMost n) prep.history
  past : settings.allowsEgress prep.contextClassification = true →
    MessagesWithin settings.MayLeave prep.history

def SummaryWithin (n : Nat) (summary : Option Text) : Prop :=
  ∀ x, summary = some x → x.Within (AtMost n)

/-- What a turn holds in its variables. -/
def Sound (settings : Settings) (n : Nat) (messages : List Message) (changes : List Change) :
    Phase → Prop
  | .arrived | .saved _ | .answered _ | .done => True
  | .found conversation seen | .touched conversation seen => Loaded n messages conversation seen
  | .loaded prep | .stored prep | .prepared prep | .retrieved prep _ _ => Read settings n prep
  | .compared prep _ _ conversation =>
      Read settings n prep ∧ level conversation.contextClassification ≤ n
  | .recording prep _ retrieval conversation =>
      Read settings n prep ∧
        (changes = [] ∧ level retrieval.maxClassification ≤ n ∨
          ∃ record, changes = [.classify record] ∧ level record =
            max (level conversation.contextClassification) (level retrieval.maxClassification))
  | .recorded prep _ retrieval => Read settings n prep ∧ level retrieval.maxClassification ≤ n
  | .replied reply _ _ => reply.Within (AtMost n)
  | .reviewing _ conversation => SummaryWithin n conversation.summary
  | .folding folded => SummaryWithin n folded.summary

/-- Only a turn that records sets the record. -/
def Allowed (n : Nat) (phase : Phase) : Change → Prop
  | .choose _ => True
  | .classify _ => ∃ prep turn retrieval conversation,
      phase = .recording prep turn retrieval conversation
  | .summarize summary _ => SummaryWithin n summary

structure Kept (settings : Settings) (n : Nat) (messages : List Message) (s : Session) :
    Prop where
  phase : Sound settings n messages s.changes s.phase
  changes : ∀ change ∈ s.changes, Allowed n s.phase change
  inserts : ∀ m ∈ s.inserts, m.content.Within (AtMost n)

/-- **The record covers what is stored and what was sent, and nothing that may not leave was
sent outside, nor is a history let out that may not.** -/
structure Covered (settings : Settings) (t : Talk) : Prop where
  stored : StoredWithin (AtMost t.record) t.conversation t.messages
  sent : SentWithin (AtMost t.record) t.sent
  safe : SafelySent settings t.sent
  decisions : ∀ d ∈ t.decisions, d.1 = true → MessagesWithin settings.MayLeave d.2

theorem Loaded.mono {n n' : Nat} {messages more : List Message} {conversation : Conversation}
    {seen : Nat} (le : n ≤ n') (read : Loaded n messages conversation seen) :
    Loaded n' (messages ++ more) conversation seen where
  record := Nat.le_trans read.record le
  summary := read.summary
  there := by
    have before := read.there
    simp
    omega
  old := by
    rw [List.take_append_of_le_length read.there]
    exact read.old

theorem Read.mono {n n' : Nat} {prep : Prepared} (le : n ≤ n') (read : Read settings n prep) :
    Read settings n' prep :=
  ⟨Nat.le_trans read.record le, messages_mono le read.low, read.past⟩

theorem SummaryWithin.mono {n n' : Nat} {summary : Option Text} (le : n ≤ n')
    (low : SummaryWithin n summary) : SummaryWithin n' summary :=
  fun x held => within_mono le (low x held)

theorem Sound.mono {n n' : Nat} {messages more : List Message} {changes : List Change}
    (le : n ≤ n') {phase : Phase} (sound : Sound settings n messages changes phase) :
    Sound settings n' (messages ++ more) changes phase := by
  cases phase with
  | arrived | saved | answered | done => trivial
  | found conversation seen | touched conversation seen => exact Loaded.mono le sound
  | loaded prep | stored prep | prepared prep | retrieved prep turn retrieval =>
      exact Read.mono le sound
  | compared prep turn retrieval conversation =>
      exact ⟨sound.1.mono le, Nat.le_trans sound.2 le⟩
  | recording prep turn retrieval conversation =>
      refine ⟨sound.1.mono le, sound.2.imp_left ?_⟩
      rintro ⟨quiet, covered⟩
      exact ⟨quiet, Nat.le_trans covered le⟩
  | recorded prep turn retrieval => exact ⟨sound.1.mono le, Nat.le_trans sound.2 le⟩
  | replied reply status summariser => exact within_mono le sound
  | reviewing summariser conversation => exact SummaryWithin.mono le sound
  | folding folded => exact SummaryWithin.mono le sound

/-- A turn is not disturbed by what others commit. -/
theorem Kept.mono {n n' : Nat} {messages messages' : List Message} {s : Session} (le : n ≤ n')
    (more : messages <+: messages') (kept : Kept settings n messages s) :
    Kept settings n' messages' s := by
  obtain ⟨later, rfl⟩ := more
  refine ⟨kept.phase.mono le, ?_, fun m mem => within_mono le (kept.inserts m mem)⟩
  intro change mem
  have before := kept.changes change mem
  cases change with
  | choose model => trivial
  | classify record => exact before
  | summarize summary upto => exact SummaryWithin.mono le before

/-! ## One statement -/

/-- Nothing is recorded when the record a turn has read covers its sources. -/
theorem level_of_settled {prep : Prepared} {retrieval : RetrievalResult}
    (done : settled prep retrieval = true) :
    level retrieval.maxClassification ≤ level prep.contextClassification := by
  unfold settled at done
  cases held : retrieval.maxClassification with
  | none => exact Nat.zero_le _
  | some current =>
      rw [held] at done
      have same := congrArg level (of_decide_eq_true done)
      rw [level_mostSensitive_pair] at same
      omega

/-- What a statement leads to. -/
structure Advanced (settings : Settings) (t : Talk) (next : Talk × Session) : Prop where
  record : t.record ≤ next.1.record
  messages : t.messages <+: next.1.messages
  covered : Covered settings next.1
  kept : Kept settings next.1.record next.1.messages next.2

section Statements

variable {t : Talk} {s : Session}

/-- A statement that changes nothing but the variables of the turn. -/
theorem stays (covered : Covered settings t) {s' : Session}
    (kept : Kept settings t.record t.messages s') : Advanced settings t (t, s') :=
  ⟨Nat.le_refl _, List.prefix_rfl, covered, kept⟩

theorem Covered.log (covered : Covered settings t) {sent : List Sent}
    (low : SentWithin (AtMost t.record) sent) (safe : SafelySent settings sent) :
    Covered settings (t.log sent) :=
  ⟨covered.stored, covered.sent.append low, covered.safe.append safe, covered.decisions⟩

theorem logs (covered : Covered settings t) {sent : List Sent}
    (low : SentWithin (AtMost t.record) sent) (safe : SafelySent settings sent) {s' : Session}
    (kept : Kept settings t.record t.messages s') : Advanced settings t (t.log sent, s') :=
  ⟨Nat.le_refl _, List.prefix_rfl, covered.log low safe, kept⟩

/-- The turn goes on with other variables and the same transaction. -/
theorem Kept.to {n : Nat} {messages : List Message} (kept : Kept settings n messages s)
    (quiet : ∀ change ∈ s.changes, Allowed n .done change) {phase : Phase}
    (sound : Sound settings n messages s.changes phase) :
    Kept settings n messages (s.to phase) := by
  refine ⟨sound, ?_, kept.inserts⟩
  intro change mem
  have before := quiet change mem
  cases change with
  | choose model => trivial
  | classify record =>
      obtain ⟨_, _, _, _, other⟩ := before
      cases other
  | summarize summary upto => exact before

theorem insert_advanced (covered : Covered settings t)
    (kept : Kept settings t.record t.messages s)
    (quiet : ∀ change ∈ s.changes, Allowed t.record .done change) {content : Text}
    (low : content.Within (AtMost t.record)) (fromUser : Bool) (status : MessageStatus)
    {phase : Phase} (sound : Sound settings t.record t.messages s.changes phase) :
    Advanced settings t (insert t s fromUser content status phase) := by
  refine ⟨Nat.le_refl _, List.prefix_rfl,
    ⟨covered.stored, covered.sent, covered.safe, covered.decisions⟩, ?_⟩
  have moved := kept.to quiet sound
  refine ⟨moved.phase, moved.changes, ?_⟩
  exact List.forall_mem_append.mpr ⟨kept.inserts, List.forall_mem_singleton.mpr low⟩

/-- What is committed by a turn that does not record. -/
theorem changes_quiet {n : Nat} : ∀ {changes : List Change},
    (∀ change ∈ changes, Allowed n .done change) → ∀ {conversation : Conversation},
    SummaryWithin n conversation.summary →
      (changes.foldr Change.apply conversation).contextClassification =
          conversation.contextClassification ∧
        SummaryWithin n (changes.foldr Change.apply conversation).summary
  | [], _, _, low => ⟨rfl, low⟩
  | change :: changes, quiet, conversation, low => by
      have below := @changes_quiet n changes
        (fun c mem => quiet c (List.mem_cons_of_mem _ mem)) conversation low
      have here := quiet change List.mem_cons_self
      rw [List.foldr_cons]
      cases change with
      | choose model =>
          rw [Change.apply]
          split
          · exact below
          · exact below
      | classify record =>
          obtain ⟨_, _, _, _, other⟩ := here
          cases other
      | summarize summary upto => exact ⟨below.1, here⟩

theorem commit_advanced (covered : Covered settings t)
    (kept : Kept settings t.record t.messages s)
    (quiet : ∀ change ∈ s.changes, Allowed t.record .done change) {phase : Phase}
    (sound : ∀ more, Sound settings t.record (t.messages ++ more) [] phase) :
    Advanced settings t (commit t s phase) := by
  obtain ⟨same, low⟩ := changes_quiet quiet covered.stored.summary
  have record : (commit t s phase).1.record = t.record := congrArg level same
  refine ⟨record.ge, List.prefix_append _ _, ⟨?_, ?_, covered.safe, covered.decisions⟩, ?_,
    nofun, nofun⟩
  · rw [record]
    exact ⟨low, List.forall_mem_append.mpr ⟨covered.stored.messages, kept.inserts⟩⟩
  · rw [record]
    exact covered.sent
  · rw [record]
    exact sound _

/-- What is committed by a turn that records, when that covers the record. -/
theorem record_advanced (covered : Covered settings t)
    (kept : Kept settings t.record t.messages s) {record : Option Classification}
    (changes : s.changes = [.classify record]) (raised : t.record ≤ level record) {phase : Phase}
    (sound : ∀ more, Sound settings (level record) (t.messages ++ more) [] phase) :
    Advanced settings t (commit t s phase) := by
  have now : (commit t s phase).1.record = level record := by
    rw [commit, changes]
    rfl
  have same : (commit t s phase).1.conversation.summary = t.conversation.summary := by
    rw [commit, changes]
    rfl
  have stored : StoredWithin (AtMost (level record)) (commit t s phase).1.conversation
      (commit t s phase).1.messages := by
    refine ⟨?_, ?_⟩
    · rw [same]
      exact fun x held => within_mono raised (covered.stored.summary x held)
    · intro m mem
      rcases List.mem_append.mp mem with old | new
      · exact within_mono raised (covered.stored.messages m old)
      · exact within_mono raised (kept.inserts m new)
  refine ⟨by rw [now]; exact raised, List.prefix_append _ _,
    ⟨by rw [now]; exact stored, ?_, covered.safe, covered.decisions⟩, ?_, nofun, nofun⟩
  · rw [now]
    exact fun sent mem => messages_mono raised (covered.sent sent mem)
  · rw [now]
    exact sound _

/-- Outside `_remember_context` no change of the record is pending. -/
theorem Kept.quiet {n : Nat} {messages : List Message} (kept : Kept settings n messages s)
    (other : ∀ prep turn retrieval conversation,
      s.phase ≠ .recording prep turn retrieval conversation) :
    ∀ change ∈ s.changes, Allowed n .done change := by
  intro change mem
  have before := kept.changes change mem
  cases change with
  | choose model => trivial
  | classify record =>
      obtain ⟨prep, turn, retrieval, conversation, here⟩ := before
      exact absurd here (other prep turn retrieval conversation)
  | summarize summary upto => exact before

/-- The history a turn reads is covered by the record, and by the record it has read. -/
theorem read_preparedOf (covered : Covered settings t) {conversation : Conversation} {seen : Nat}
    (loaded : Loaded t.record t.messages conversation seen)
    (fitting : settings.allowsEgress conversation.contextClassification = true →
      ∀ m ∈ t.messages.drop seen, m.content.Within settings.MayLeave)
    (message : String) (model : Option String) :
    Read settings t.record (preparedOf settings message model conversation t.messages) := by
  have same : ((Change.choose model).apply conversation).contextClassification =
        conversation.contextClassification ∧
      ((Change.choose model).apply conversation).summary = conversation.summary := by
    rw [Change.apply]
    split <;> exact ⟨rfl, rfl⟩
  have all : ∀ {P : RetrievedChunk → Prop},
      (∀ x, conversation.summary = some x → x.Within P) →
      (∀ m ∈ t.messages, m.content.Within P) →
      MessagesWithin P (preparedOf settings message model conversation t.messages).history := by
    intro P summary messages
    exact within_history ⟨by rw [same.2]; exact summary, messages⟩ _ _
  refine ⟨loaded.record, ?_, ?_⟩
  · refine all ?_ covered.stored.messages
    exact SummaryWithin.mono loaded.record loaded.summary
  · intro allowed
    refine all (fun x held c mem => mayLeave_of_atMost allowed (loaded.summary x held c mem)) ?_
    intro m mem
    rw [← List.take_append_drop seen t.messages] at mem
    rcases List.mem_append.mp mem with old | new
    · exact fun c quoted => mayLeave_of_atMost allowed (loaded.old m old c quoted)
    · exact fitting allowed m new

/-- The reply of a knowledge turn and the prompts it comes from. -/
theorem replyOf_within {n : Nat} {prep : Prepared} {retrieval : RetrievalResult}
    (read : Read settings n prep) (sources : level retrieval.maxClassification ≤ n)
    (turn : Turn) (knowledge : KnowledgeTurn) {messages : List Message} {changes : List Change} :
    SentWithin (AtMost n) (replyOf settings grounding turn prep knowledge retrieval).1 ∧
      Sound settings n messages changes
        (replyOf settings grounding turn prep knowledge retrieval).2 := by
  have chunks : ∀ c ∈ retrieval.chunks, AtMost n c :=
    fun c mem => Nat.le_trans (level_le_maxClassification mem) sources
  have chat : SentWithin (AtMost n) (chatReply settings grounding prep knowledge retrieval).1 ∧
      Sound settings n messages changes
        (chatReply settings grounding prep knowledge retrieval).2 := by
    have answer := @answerFromKnowledge_within settings grounding _ prep.question _ _
      (egressAllowed settings prep retrieval) knowledge.first knowledge.second chunks read.low
    refine ⟨answer.1, ?_⟩
    unfold chatReply
    dsimp only
    split
    · exact within_plain _
    · rename_i text replied
      exact answer.2 text replied
  cases turn with
  | chat message model route => exact chat
  | switchModel model => exact chat
  | stream message model route =>
      show SentWithin _ (streamReply settings grounding prep knowledge retrieval).1 ∧
        Sound settings n messages changes
          (streamReply settings grounding prep knowledge retrieval).2
      have prompt : MessagesWithin (AtMost n) (buildMessages prep.question retrieval.chunks
          prep.history (0 < retrieval.admittedByReview)) := within_buildMessages chunks read.low
      unfold streamReply
      by_cases empty : retrieval.chunks = []
      · rw [if_pos empty]
        exact ⟨nofun, within_plain _⟩
      · rw [if_neg empty]
        refine ⟨gatewayChat_within prompt knowledge.first, ?_⟩
        dsimp only
        split
        · exact within_written prompt
        · exact within_written prompt

/-- The prompts of a reply go outside only when the sources and the history may. -/
theorem replyOf_safe {n : Nat} {prep : Prepared} (read : Read settings n prep) (turn : Turn)
    (knowledge : KnowledgeTurn) (retrieval : RetrievalResult) :
    SafelySent settings (replyOf settings grounding turn prep knowledge retrieval).1 := by
  have past : egressAllowed settings prep retrieval = true →
      MessagesWithin settings.MayLeave prep.history :=
    fun allowed => read.past (record_mayLeave allowed)
  have chat : SafelySent settings (chatReply settings grounding prep knowledge retrieval).1 :=
    (answerFromKnowledge_safe chunks_mayLeave past).1
  cases turn with
  | chat message model route => exact chat
  | switchModel model => exact chat
  | stream message model route =>
      show SafelySent settings (streamReply settings grounding prep knowledge retrieval).1
      unfold streamReply
      by_cases empty : retrieval.chunks = []
      · rw [if_pos empty]
        exact fun s mem => absurd mem List.not_mem_nil
      · rw [if_neg empty]
        apply gatewayChat_safe
        intro allowed
        exact within_buildMessages (chunks_mayLeave allowed) (past allowed)

/-- A turn that takes its route. -/
theorem takeRoute_advanced (covered : Covered settings t)
    (kept : Kept settings t.record t.messages s)
    (quiet : ∀ change ∈ s.changes, Allowed t.record .done change) {prep : Prepared}
    (read : Read settings t.record prep) {route : TurnRoute} {message : String}
    (asked : routeOf s.turn = some (message, route)) (fitting : Fitting settings t s (.prepared prep)) :
    Advanced settings t (takeRoute settings grounding t s prep route) := by
  rw [Fitting, asked] at fitting
  cases route with
  | fixed text => exact stays covered (kept.to quiet (within_plain _))
  | tool message => exact stays covered (kept.to quiet (within_plain _))
  | search chunks department => exact stays covered (kept.to quiet (within_quoting.mpr fitting))
  | knowledge turn =>
      rw [takeRoute]
      dsimp only at fitting
      cases found : turn.found with
      | none => exact stays covered (kept.to quiet (within_plain _))
      | some retrieval =>
          rw [found] at fitting
          exact logs covered (reviewNearMisses_within fitting) (reviewNearMisses_safe _ _ _)
            (kept.to quiet read)

/-- A turn that summarises hands the transcript to models on the box only. -/
theorem summarize_advanced (covered : Covered settings t)
    (kept : Kept settings t.record t.messages s)
    (quiet : ∀ change ∈ s.changes, Allowed t.record .done change) {conversation : Conversation}
    (low : SummaryWithin t.record conversation.summary) (x : Exchange) :
    Advanced settings t (summarize t s x conversation) := by
  have prompt : MessagesWithin (AtMost t.record)
      (summaryPrompt (olderMessages conversation t.messages)) :=
    within_summaryPrompt fun m mem => covered.stored.messages m (mem_olderMessages mem)
  unfold summarize
  dsimp only
  by_cases few : olderMessages conversation t.messages = []
  · rw [if_pos few]
    exact stays covered (kept.to quiet trivial)
  · rw [if_neg few]
    refine logs covered (gatewayChat_within prompt x)
      (gatewayChat_safe (fun impossible => absurd impossible Bool.false_ne_true) x) ?_
    split
    · exact kept.to quiet trivial
    · have stored : StoredWithin (AtMost t.record) conversation [] := ⟨low, nofun⟩
      exact kept.to quiet (within_foldSummary stored (within_written prompt)).summary

/-- **The next statement of a turn.** -/
theorem advance_advanced (covered : Covered settings t)
    (kept : Kept settings t.record t.messages s) (fitting : Fitting settings t s s.phase) :
    Advanced settings t (advance settings grounding t s) := by
  have sound := kept.phase
  unfold advance
  cases phase : s.phase with
  | arrived =>
      have quiet := kept.quiet fun _ _ _ _ same => by cases phase.symm.trans same
      refine stays covered (kept.to quiet ⟨Nat.le_refl _, covered.stored.summary, Nat.le_refl _, ?_⟩)
      intro m mem
      exact covered.stored.messages m (List.mem_of_mem_take mem)
  | found conversation seen =>
      rw [phase] at sound
      have updated : ∀ {next : Phase}, Sound settings t.record t.messages
          [.choose (chosenModel s.turn)] next → Kept settings t.record t.messages
            { s with changes := [.choose (chosenModel s.turn)], phase := next } := by
        intro next holds
        refine ⟨holds, ?_, kept.inserts⟩
        intro change mem
        rw [List.mem_singleton.mp mem]
        trivial
      dsimp only
      cases routeOf s.turn with
      | none => exact stays covered (updated trivial)
      | some asked => exact stays covered (updated sound)
  | touched conversation seen =>
      have quiet := kept.quiet fun _ _ _ _ same => by cases phase.symm.trans same
      rw [phase] at sound fitting
      dsimp only
      cases routeOf s.turn with
      | none => exact stays covered (kept.to quiet trivial)
      | some asked =>
          obtain ⟨message, route⟩ := asked
          exact stays covered (kept.to quiet (read_preparedOf covered sound fitting _ _))
  | loaded prep =>
      have quiet := kept.quiet fun _ _ _ _ same => by cases phase.symm.trans same
      rw [phase] at sound
      exact insert_advanced covered kept quiet (within_plain _) _ _ sound
  | stored prep =>
      have quiet := kept.quiet fun _ _ _ _ same => by cases phase.symm.trans same
      rw [phase] at sound
      exact commit_advanced covered kept quiet fun _ => sound
  | prepared prep =>
      have quiet := kept.quiet fun _ _ _ _ same => by cases phase.symm.trans same
      rw [phase] at sound fitting
      dsimp only
      cases asked : routeOf s.turn with
      | none => exact stays covered (kept.to quiet trivial)
      | some route => exact takeRoute_advanced covered kept quiet sound asked fitting
  | retrieved prep turn retrieval =>
      have quiet := kept.quiet fun _ _ _ _ same => by cases phase.symm.trans same
      rw [phase] at sound
      dsimp only
      cases done : settled prep retrieval with
      | true =>
          refine stays covered (kept.to quiet ⟨sound, ?_⟩)
          exact Nat.le_trans (level_of_settled done) sound.record
      | false => exact stays covered (kept.to quiet ⟨sound, Nat.le_refl _⟩)
  | compared prep turn retrieval conversation =>
      rw [phase] at sound
      obtain ⟨read, known⟩ := sound
      dsimp only
      by_cases same : mostSensitive [conversation.contextClassification,
          retrieval.maxClassification] = conversation.contextClassification
      · rw [if_pos same]
        refine stays covered ⟨⟨read, .inl ⟨rfl, ?_⟩⟩, nofun, kept.inserts⟩
        have levels := congrArg level same
        rw [level_mostSensitive_pair] at levels
        omega
      · rw [if_neg same]
        refine stays covered ⟨⟨read, .inr ⟨_, rfl, level_mostSensitive_pair _ _⟩⟩, ?_,
          kept.inserts⟩
        intro change mem
        rw [List.mem_singleton.mp mem]
        exact ⟨prep, turn, retrieval, conversation, rfl⟩
  | recording prep turn retrieval conversation =>
      rw [phase] at sound fitting
      obtain ⟨read, ⟨quiet, below⟩ | ⟨record, changes, raised⟩⟩ := sound
      · exact commit_advanced covered kept (by rw [quiet]; exact nofun) fun _ => ⟨read, below⟩
      · have up : t.record ≤ level record := by
          rw [raised]
          exact fitting (by rw [changes]; exact List.cons_ne_nil _ _)
        refine record_advanced covered kept changes up fun _ => ⟨read.mono up, ?_⟩
        rw [raised]
        exact Nat.le_max_right _ _
  | recorded prep turn retrieval =>
      have quiet := kept.quiet fun _ _ _ _ same => by cases phase.symm.trans same
      rw [phase] at sound
      obtain ⟨read, sources⟩ := sound
      obtain ⟨low, next⟩ := @replyOf_within settings grounding _ _ _ read sources s.turn turn
        t.messages s.changes
      have logged := covered.log low (replyOf_safe read s.turn turn retrieval)
      refine ⟨Nat.le_refl _, List.prefix_rfl, ⟨logged.stored, logged.sent, logged.safe, ?_⟩,
        kept.to quiet next⟩
      refine List.forall_mem_append.mpr ⟨covered.decisions, List.forall_mem_singleton.mpr ?_⟩
      intro allowed
      exact read.past (record_mayLeave allowed)
  | replied reply status summariser =>
      have quiet := kept.quiet fun _ _ _ _ same => by cases phase.symm.trans same
      rw [phase] at sound
      exact insert_advanced covered kept quiet sound _ _ trivial
  | saved summariser =>
      have quiet := kept.quiet fun _ _ _ _ same => by cases phase.symm.trans same
      refine commit_advanced covered kept quiet fun _ => ?_
      cases summariser <;> trivial
  | answered x =>
      have quiet := kept.quiet fun _ _ _ _ same => by cases phase.symm.trans same
      exact stays covered (kept.to quiet covered.stored.summary)
  | reviewing x conversation =>
      have quiet := kept.quiet fun _ _ _ _ same => by cases phase.symm.trans same
      rw [phase] at sound
      exact summarize_advanced covered kept quiet sound x
  | folding folded =>
      rw [phase] at sound
      refine stays covered ⟨trivial, ?_, kept.inserts⟩
      intro change mem
      rw [List.mem_singleton.mp mem]
      exact sound
  | done => exact stays covered kept

end Statements

/-! ## Runs -/

/-- What holds of every state an orderly run reaches. -/
structure Consistent (settings : Settings) (t : Talk) : Prop where
  covered : Covered settings t
  kept : ∀ s ∈ t.sessions, Kept settings t.record t.messages s

/-- **One orderly step: the record is not lowered, and the invariant is kept.** -/
theorem step_consistent {t : Talk} {act : Act} (inv : Consistent settings t)
    (orderly : Orderly settings t act) :
    Consistent settings (t.step settings grounding act) ∧
      t.record ≤ (t.step settings grounding act).record := by
  have others : ∀ {i : Nat} {s' : Session} {t' : Talk}, t.record ≤ t'.record →
      t.messages <+: t'.messages → Kept settings t'.record t'.messages s' →
      ∀ s ∈ t.sessions.set i s', Kept settings t'.record t'.messages s := by
    intro i s' t' le more moved s mem
    rcases List.mem_or_eq_of_mem_set mem with other | rfl
    · exact (inv.kept s other).mono le more
    · exact moved
  cases act with
  | request turn =>
      refine ⟨⟨⟨inv.covered.stored, inv.covered.sent, inv.covered.safe, inv.covered.decisions⟩, ?_⟩,
        Nat.le_refl _⟩
      exact List.forall_mem_append.mpr
        ⟨inv.kept, List.forall_mem_singleton.mpr ⟨trivial, nofun, nofun⟩⟩
  | advance i =>
      rw [Talk.step]
      rw [Orderly] at orderly
      cases held : t.sessions[i]? with
      | none => exact ⟨inv, Nat.le_refl _⟩
      | some s =>
          rw [held] at orderly
          obtain ⟨le, more, covered, moved⟩ := @advance_advanced settings grounding t s inv.covered
            (inv.kept s (List.mem_of_getElem? held)) orderly
          exact ⟨⟨⟨covered.stored, covered.sent, covered.safe, covered.decisions⟩,
            others le more moved⟩, le⟩
  | abandon i =>
      rw [Talk.step]
      cases held : t.sessions[i]? with
      | none => exact ⟨inv, Nat.le_refl _⟩
      | some s =>
          refine ⟨⟨⟨inv.covered.stored, inv.covered.sent, inv.covered.safe,
            inv.covered.decisions⟩, ?_⟩, Nat.le_refl _⟩
          exact @others _ _ t (Nat.le_refl _) List.prefix_rfl ⟨trivial, nofun, nofun⟩

/-- The steps of orderly runs. -/
abbrev OrderlyStep (settings : Settings) (grounding : Grounding) : Talk → Act → Talk → Prop :=
  Guarded (Orderly settings) (StepOf (Talk.step settings grounding))

theorem run_consistent {t t' : Talk} {acts : List Act}
    (run : Run (OrderlyStep settings grounding) t acts t') (inv : Consistent settings t) :
    Consistent settings t' ∧ t.record ≤ t'.record := by
  induction run with
  | nil s => exact ⟨inv, Nat.le_refl _⟩
  | cons step _ ih =>
      obtain ⟨orderly, rfl⟩ := step
      obtain ⟨next, up⟩ := step_consistent inv orderly
      obtain ⟨last, rest⟩ := ih next
      exact ⟨last, Nat.le_trans up rest⟩

/-- **While the turns on a conversation keep out of each other's way, its record is never
lowered, covers all that is stored or was handed to a model, and nothing that may not leave
the box is sent outside.** -/
theorem record_one_way {settings : Settings} {grounding : Grounding} {conversation : Conversation}
    {early late : List Act} {t t' : Talk} (fresh : conversation.summary = none)
    (before : Run (OrderlyStep settings grounding) { conversation } early t)
    (after : Run (OrderlyStep settings grounding) t late t') :
    t.record ≤ t'.record ∧
      (∀ m ∈ t'.messages, m.content.Within (AtMost t'.record)) ∧
      (∀ sent ∈ t'.sent, MessagesWithin (AtMost t'.record) sent.messages ∧
        (sent.target.dataEgress = true → MessagesWithin settings.MayLeave sent.messages)) ∧
      ∀ d ∈ t'.decisions, d.1 = true → MessagesWithin settings.MayLeave d.2 := by
  have start : Consistent settings { conversation } := by
    have none : ∀ {α : Type} {P : α → Prop}, ∀ a ∈ ([] : List α), P a :=
      fun a mem => absurd mem List.not_mem_nil
    refine ⟨⟨⟨?_, none⟩, none, none, none⟩, none⟩
    intro x held
    rw [fresh] at held
    cases held
  obtain ⟨mid, -⟩ := run_consistent before start
  obtain ⟨last, up⟩ := run_consistent after mid
  refine ⟨up, last.covered.stored.messages, ?_, last.covered.decisions⟩
  intro sent mem
  exact ⟨last.covered.sent sent mem, last.covered.safe sent mem⟩

/-! ## A turn alone -/

/-- What is committed, and what was sent. -/
def Talk.dialogue (t : Talk) : Dialogue :=
  { conversation := t.conversation, messages := t.messages, nextSeq := t.nextSeq, sent := t.sent }

/-- A turn among others that do not move. -/
def Talk.among (t : Talk) (front : List Session) (s : Session) : Talk :=
  { t with sessions := front ++ [s] }

section Alone

variable {t : Talk} {turn : Turn}

/-- A dialogue when a turn that got so far is done. -/
def finished (d : Dialogue) : Phase → Dialogue
  | .replied reply status none => d.addMessage false reply status
  | .replied reply status (some x) => maybeSummarize x (d.addMessage false reply status)
  | _ => d

end Alone

/-- A question answered on the box from one chunk. -/
def poleQuestion (chunk : RetrievedChunk) (target : Target) : Turn :=
  .chat "question" none (.knowledge
    { found := some { chunks := [chunk] },
      first := { invoked := [target], reply := some (target, "The answer [1].") } })

def poleLocal : Target := { id := "local", dataEgress := false }

def poleRun (acts : List Act) (t : Talk) : Talk := acts.foldl (Talk.step {} poleGrounding) t

/-- Two turns, up to where each has compared what it used with the record. -/
def poleCompared : Talk :=
  poleRun
    (.request (poleQuestion poleMemo poleLocal) :: .request (poleQuestion poleHandbook poleLocal) ::
      List.replicate 7 (.advance 0) ++ List.replicate 7 (.advance 1) ++
      List.replicate 2 (.advance 0))
    { conversation := poleConversation }

/-- **The record is overwritten**: a turn that read the row before another one committed puts
back the lower classification. -/
theorem record_overwritten :
    (poleRun (List.replicate 2 (.advance 1)) poleCompared).record < poleCompared.record := by
  decide +kernel

/-- Two turns that take turns, the second one after the first has recorded. -/
def poleEarly : List Act :=
  .request (poleQuestion poleHandbook poleLocal) :: .request (poleQuestion poleHandbook poleCloud) ::
    List.replicate 10 (.advance 0) ++ List.replicate 4 (.advance 1)

def poleLate : List Act := [.advance 0, .advance 1, .advance 0] ++ List.replicate 12 (.advance 1)

def poleMid : Talk := poleRun poleEarly { conversation := poleConversation }

theorem record_one_way_pole :
    (∃ sent ∈ (poleRun poleLate poleMid).sent, sent.target.dataEgress = true) ∧
      poleMid.record ≤ (poleRun poleLate poleMid).record ∧
      ∀ sent ∈ (poleRun poleLate poleMid).sent,
        sent.target.dataEgress = true → MessagesWithin (Settings.MayLeave {}) sent.messages := by
  have before : Run (OrderlyStep {} poleGrounding) { conversation := poleConversation } poleEarly
      poleMid := Run.guarded_of_keepsTo (by decide +kernel)
  have after : Run (OrderlyStep {} poleGrounding) poleMid poleLate (poleRun poleLate poleMid) :=
    Run.guarded_of_keepsTo (by decide +kernel)
  obtain ⟨up, -, safe, -⟩ := record_one_way rfl before after
  exact ⟨by decide +kernel, up, fun sent mem => (safe sent mem).2⟩

end OpsAssist.OneWay
