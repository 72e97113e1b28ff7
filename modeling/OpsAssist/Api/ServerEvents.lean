/-
# OpsAssist.Api.ServerEvents -- what a client reads of a streamed turn

The generator of a streamed turn yields frames: the name of an event, and its data as JSON.  The
data hold texts that users and models wrote, a connection may break anywhere, and the turn is
stored while the frames go out.

`client_reads`: at every stop of every turn, of whatever came of its frames, a client reads
exactly the events that came whole, in the order that the endpoint documents; an answer that it
reads as the last one is stored as the complete message, an error as a failed one, and the text
it has read so far begins the message that is stored of a broken turn.
Pole: `client_reads_pole`.
-/
import OpsAssist.Api.Stream
import OpsAssist.Theory.EventStream
import OpsAssist.Theory.JsonSpaced

namespace OpsAssist.ServerEvents

set_option autoImplicit false

open Theory Json Numeral EventStream Gateway Answering

/-! ## Frames -/

/-- The events of `chat_stream`. -/
inductive EventName where
  | meta_
  | model
  | delta
  | done
  | error
deriving DecidableEq

def EventName.text : EventName → String
  | .meta_ => "meta"
  | .model => "model"
  | .delta => "delta"
  | .done => "done"
  | .error => "error"

/-- `json.dumps` -/
def dumps (data : Value) : List Char := spaced Number.text data

/-- `_sse` -/
def sse (event : EventName) (data : Value) : List Char :=
  "event: ".toList ++ event.text.toList ++ "\ndata: ".toList ++ dumps data ++ "\n\n".toList

/-! ## The data of the events -/

/-- What the model of a turn leaves out, as it is written: the id of the stored message, times
in milliseconds, costs, and the summary of a retrieval with its counts and its latency. -/
structure Written where
  messageId : String
  time : ℚ → Number
  money : ℚ → String
  retrieval : RetrievalOut → Value

def optional {α : Type} (write : α → Value) (a : Option α) : Value := a.elim .null write

def number (n : Nat) : Value := .num (.int n)

/-- `ToolOut.model_dump(mode="json")` -/
def toolData (tool : ToolOut) : Value :=
  .obj [
    ("name", .str tool.name),
    ("status", .str tool.status),
    ("message", .str tool.message),
    ("data", tool.data.getD .null),
    ("pending_action_id", optional (fun id => .str id.text) tool.pendingActionId),
    ("action_hash", optional .str tool.actionHash)]

/-- `CitationOut.model_dump()` -/
def citationData (c : CitationOut) : Value :=
  .obj [
    ("number", number c.number),
    ("doc_key", .str c.docKey),
    ("version", number c.version),
    ("title", .str c.title),
    ("locator", .str c.locator),
    ("ref", .str c.ref),
    ("label", .str c.label),
    ("snippet", .str c.snippet)]

def suggestedData (action : SuggestedAction) : Value :=
  .obj [
    ("tool", .str action.tool),
    ("label", .str action.label),
    ("arguments", .obj (action.arguments.map fun a => (a.1, .str a.2)))]

/-- The name of a provider error's class. -/
def errorClass : ProviderErrorKind → String
  | .timeout => "ProviderTimeout"
  | .unavailable => "ProviderUnavailable"
  | .rateLimited _ => "ProviderRateLimited"
  | .auth => "ProviderAuthError"
  | .modelNotFound => "ProviderModelNotFound"
  | .badRequest => "ProviderBadRequest"
  | .responseError => "ProviderResponseError"

/-- `AttemptOut.of`: an attempt that was skipped shows why. -/
def attemptOutcome (a : AttemptRecord) : String :=
  match a.outcome with
  | .success => "success"
  | .error => "error"
  | .timeout => "timeout"
  | .cancelled => "cancelled"
  | .skipped => "skipped:" ++ a.detail.getD "None"

section

variable (w : Written)

def attemptData (a : AttemptRecord) : Value :=
  .obj [
    ("model", .str a.modelId),
    ("provider", .str a.provider),
    ("attempt", number a.attempt),
    ("outcome", .str (attemptOutcome a)),
    ("error_type", optional (fun kind => .str (errorClass kind)) a.errorType),
    ("latency_ms", .num (w.time a.latency))]

/-- `usage_out` -/
def usageData (usage : Usage) (cost : ℚ) : Value :=
  .obj [
    ("prompt_tokens", number usage.promptTokens),
    ("completion_tokens", number usage.completionTokens),
    ("total_tokens", number (usage.promptTokens + usage.completionTokens)),
    ("estimated", .bool usage.estimated),
    ("cost_usd", .str (w.money cost))]

/-- The three `done` events: of a streamed answer, of an abstention over no sections, and of an
answer that needs no stream. -/
def doneMembers (d : Done) : List (String × Value) :=
  ("message_id", .str w.messageId) :: ("content", .str d.content) :: ("route", .str d.route) ::
  match d.usage, d.retrieval with
  | some (usage, cost), retrieval => [
      ("suggested_action", optional suggestedData d.suggestedAction),
      ("citations", .arr (d.citations.map citationData)),
      ("grounded", .bool d.grounded),
      ("abstained", .bool d.abstained),
      ("invalid_citations", number d.invalidCitations),
      ("repointed_citations", number d.repointedCitations),
      ("finish_reason", optional .str d.finishReason),
      ("usage", usageData w usage cost),
      ("retrieval", optional w.retrieval retrieval),
      ("latency_ms", optional (fun latency => .num (w.time latency.1)) d.latency),
      ("ttft_ms", optional (fun latency => .num (w.time latency.2)) d.latency),
      ("attempts", .arr (d.attempts.map (attemptData w)))]
  | none, some retrieval => [
      ("citations", .arr []),
      ("grounded", .bool d.grounded),
      ("abstained", .bool d.abstained),
      ("suggested_action", optional suggestedData d.suggestedAction),
      ("retrieval", w.retrieval retrieval)]
  | none, none => [
      ("tool", optional toolData d.tool),
      ("citations", .arr []),
      ("grounded", .bool d.grounded),
      ("abstained", .bool d.abstained)]

def name : Sse → EventName
  | .opened _ _ _ => .meta_
  | .model _ _ _ _ => .model
  | .delta _ => .delta
  | .done _ => .done
  | .error _ _ _ _ _ => .error

def members : Sse → List (String × Value)
  | .opened conversationId userMessageId requestId => [
      ("conversation_id", .str conversationId),
      ("user_message_id", .str userMessageId),
      ("request_id", .str requestId)]
  | .model model provider route fallbackUsed => [
      ("model", .str model),
      ("provider", .str provider),
      ("route", .str route),
      ("fallback_used", .bool fallbackUsed)]
  | .delta text => [("text", .str text)]
  | .done answer => doneMembers w answer
  | .error code message started requestId attempts =>
      ("code", .str code) :: ("message", .str message) :: ("partial", .bool started) ::
      ("request_id", .str requestId) ::
      -- the error of a retrieval that failed has no attempts
      if code = "retrieval_unavailable" then []
      else [("attempts", .arr (attempts.map (attemptData w)))]

/-- The frame of an event. -/
def frameOf (s : Sse) : List Char := sse (name s) (.obj (members w s))

/-- The event that a frame stands for. -/
def eventOf (event : EventName) (data : Value) : Event :=
  { name := event.text.toList, data := dumps data }

/-- What a client should read of an event. -/
def shown (s : Sse) : Event := eventOf (name s) (.obj (members w s))

end

theorem sse_eq (event : EventName) (data : Value) :
    sse event data = frame (eventOf event data) := by
  have front : "event: ".toList = eventField ++ [':', ' '] := by simp [eventField]
  have middle : "\ndata: ".toList = '\n' :: dataField ++ [':', ' '] := by simp [dataField]
  have back : "\n\n".toList = ['\n', '\n'] := by simp
  unfold sse
  rw [front, middle, back]
  simp only [eventOf, frame, lines, fieldLine, List.append_assoc, List.cons_append, List.nil_append]

/-! ## JSON stands in one line -/

theorem oneLine_cons {c : Char} {text : List Char} (one : c ≠ '\n' ∧ c ≠ '\r')
    (rest : OneLine text) : OneLine (c :: text) := by
  intro d mem
  rcases List.mem_cons.mp mem with rfl | later
  · exact one
  · exact rest d later

theorem oneLine_nil : OneLine [] := fun _ mem => absurd mem List.not_mem_nil

theorem oneLine_word {word : List Char} (letters : ∀ c ∈ word, isWordChar c = true) :
    OneLine word := by
  intro c mem
  have letter := letters c mem
  constructor
  · rintro rfl
    revert letter
    decide
  · rintro rfl
    revert letter
    decide

theorem oneLine_hexQuad (n : Nat) : OneLine (hexQuad n) := by
  have digit : ∀ m, m < 16 → hexDigit m ≠ '\n' ∧ hexDigit m ≠ '\r' := by decide
  intro c mem
  simp only [hexQuad, List.mem_cons, List.not_mem_nil, or_false] at mem
  rcases mem with rfl | rfl | rfl | rfl
  · exact digit _ (Nat.mod_lt _ (by omega))
  · exact digit _ (Nat.mod_lt _ (by omega))
  · exact digit _ (Nat.mod_lt _ (by omega))
  · exact digit _ (Nat.mod_lt _ (by omega))

theorem oneLine_unicodeEscape (n : Nat) : OneLine (unicodeEscape n) := by
  have opens : ∀ {text : List Char}, OneLine text → OneLine ('\\' :: 'u' :: text) :=
    fun one => oneLine_cons (by decide) (oneLine_cons (by decide) one)
  unfold unicodeEscape
  split
  · exact opens (oneLine_hexQuad _)
  · exact oneLine_append (opens (oneLine_hexQuad _)) (opens (oneLine_hexQuad _))

theorem oneLine_escapeChar (c : Char) : OneLine (escapeChar c) := by
  rcases escapeChar_cases c with ⟨letter, short, text⟩ | ⟨plain, text⟩ | ⟨-, text⟩
  · rw [text]
    refine oneLine_cons (by decide) (oneLine_cons ?_ oneLine_nil)
    unfold shortEscape at short
    split_ifs at short <;> cases short <;> decide
  · rw [text]
    refine oneLine_cons ⟨?_, ?_⟩ oneLine_nil
    · rintro rfl
      revert plain
      decide
    · rintro rfl
      revert plain
      decide
  · rw [text]
    exact oneLine_unicodeEscape _

theorem oneLine_quoted (s : String) : OneLine (quoted s) := by
  refine oneLine_cons (by decide) (oneLine_append ?_ (oneLine_cons (by decide) oneLine_nil))
  intro c mem
  obtain ⟨d, -, inside⟩ := List.mem_flatMap.mp mem
  exact oneLine_escapeChar d c inside

mutual

theorem oneLine_dumps : ∀ data : Json Number, OneLine (spaced Number.text data)
  | .null => by
      rw [spaced]
      exact oneLine_word (word_text Number.numberText rfl).1
  | .bool b => by
      rw [spaced]
      exact oneLine_word (word_text Number.numberText rfl).1
  | .num n => by
      rw [spaced]
      exact oneLine_word (word_text Number.numberText rfl).1
  | .str s => by
      rw [spaced]
      exact oneLine_quoted s
  | .arr [] => by
      rw [spaced]
      exact oneLine_cons (by decide) (oneLine_cons (by decide) oneLine_nil)
  | .arr (item :: items) => by
      rw [spaced]
      exact oneLine_cons (by decide) (oneLine_append (oneLine_dumps item) (oneLine_items items))
  | .obj [] => by
      rw [spaced]
      exact oneLine_cons (by decide) (oneLine_cons (by decide) oneLine_nil)
  | .obj ((k, v) :: rest) => by
      rw [spaced]
      exact oneLine_cons (by decide) (oneLine_append (oneLine_quoted k)
        (oneLine_cons (by decide) (oneLine_cons (by decide)
          (oneLine_append (oneLine_dumps v) (oneLine_members rest)))))

theorem oneLine_items : ∀ items : List (Json Number), OneLine (spacedItems Number.text items)
  | [] => by
      rw [spacedItems]
      exact oneLine_cons (by decide) oneLine_nil
  | item :: items => by
      rw [spacedItems]
      exact oneLine_cons (by decide) (oneLine_cons (by decide)
        (oneLine_append (oneLine_dumps item) (oneLine_items items)))

theorem oneLine_members : ∀ members : List (String × Json Number),
    OneLine (spacedMembers Number.text members)
  | [] => by
      rw [spacedMembers]
      exact oneLine_cons (by decide) oneLine_nil
  | (k, v) :: rest => by
      rw [spacedMembers]
      exact oneLine_cons (by decide) (oneLine_cons (by decide) (oneLine_append (oneLine_quoted k)
        (oneLine_cons (by decide) (oneLine_cons (by decide)
          (oneLine_append (oneLine_dumps v) (oneLine_members rest))))))

end

theorem EventName.framed (event : EventName) :
    event.text.toList ≠ [] ∧ OneLine event.text.toList := by
  cases event <;> simp [EventName.text, OneLine]

theorem EventName.text_injective {event other : EventName}
    (same : event.text.toList = other.text.toList) : event = other := by
  cases event <;> cases other <;> simp [EventName.text] at same ⊢

theorem framed_eventOf (event : EventName) (data : Value) : Framed (eventOf event data) where
  named := event.framed.1
  name := event.framed.2
  data := oneLine_dumps data

/-- The name and the data tree are in what is read. -/
theorem eventOf_inj {event other : EventName} {data data' : Value}
    (same : eventOf event data = eventOf other data') : event = other ∧ data = data' := by
  obtain ⟨names, texts⟩ := Event.mk.inj same
  exact ⟨EventName.text_injective names,
    Json.text_injective Number.numberText (spaced_injective Number.numberText texts)⟩

/-! ## The order of the events -/

/-- How far a client has heard. -/
inductive Heard where
  | nothing
  | opened
  | streaming
  /-- a text that was not streamed -/
  | told
  | over
deriving DecidableEq

/-- `meta`, then `model` and deltas or one delta or nothing, then `done` or `error`. -/
def Heard.next : Heard → EventName → Option Heard
  | .nothing, .meta_ => some .opened
  | .opened, .model => some .streaming
  | .opened, .delta => some .told
  | .opened, .error => some .over
  | .streaming, .delta => some .streaming
  | .streaming, .done => some .over
  | .streaming, .error => some .over
  | .told, .done => some .over
  | _, _ => none

def heard (sent : List Sse) : Option Heard := (sent.map name).foldlM Heard.next .nothing

theorem heard_append (sent : List Sse) (s : Sse) :
    heard (sent ++ [s]) = (heard sent).bind fun h => h.next (name s) := by
  unfold heard
  rw [List.map_append, List.foldlM_append]
  simp

theorem heard_take {sent : List Sse} {h : Heard} (whole : heard sent = some h) (n : Nat) :
    ∃ h', heard (sent.take n) = some h' := by
  unfold heard at whole
  rw [← List.take_append_drop n sent, List.map_append, List.foldlM_append] at whole
  obtain ⟨h', front, -⟩ := Option.bind_eq_some_iff.mp whole
  exact ⟨h', front⟩

def deltaText : Sse → Option String
  | .delta text => some text
  | _ => none

/-- The texts of the deltas. -/
def deltas (sent : List Sse) : List String := sent.filterMap deltaText

@[simp] theorem deltas_append (sent : List Sse) (s : Sse) :
    deltas (sent ++ [s]) = deltas sent ++ (deltaText s).toList := by
  unfold deltas
  rw [List.filterMap_append]
  cases s <;> rfl

/-! ## What is sent and what is stored -/

/-- A last event agrees with the messages that are stored. -/
def Agrees (messages : List (String × MessageStatus)) (sent : List Sse) : Sse → Prop
  | .done answer => messages = [(answer.content, .complete)]
  | .error _ _ started _ _ =>
      messages = [(String.join (deltas sent), if started then .partial_ else .error)]
  | _ => True

/-- An event after which others come. -/
def Quiet (s : Sse) : Prop := name s ≠ .done ∧ name s ≠ .error

theorem Quiet.agrees {messages : List (String × MessageStatus)} {sent : List Sse} {s : Sse}
    (quiet : Quiet s) : Agrees messages sent s := by
  cases s with
  | done answer => exact absurd rfl quiet.1
  | error code message started requestId attempts => exact absurd rfl quiet.2
  | opened _ _ _ => trivial
  | model _ _ _ _ => trivial
  | delta _ => trivial

variable {t : Turning}

/-- What was sent fits what is stored. -/
structure Sound (t : Turning) : Prop where
  orderly : ∃ h, heard t.sent = some h
  agrees : ∀ s ∈ t.sent, Agrees t.messages t.sent s
  broken : ∀ m ∈ t.messages, m.2 = .partial_ → m.1 = String.join (deltas t.sent)

/-- The turn goes on, and nothing is stored. -/
structure Open (t : Turning) (h : Heard) : Prop where
  orderly : heard t.sent = some h
  quiet : ∀ s ∈ t.sent, Quiet s
  produced : deltas t.sent = t.produced
  silent : h = .opened → t.produced = []
  stored : t.stored = []
  finished : t.finished = false

/-- A text was told and stored, and its `done` event is to come. -/
structure Told (t : Turning) (last : Done) : Prop where
  orderly : heard t.sent = some .told
  quiet : ∀ s ∈ t.sent, Quiet s
  messages : t.messages = [(last.content, .complete)]
  finished : t.finished = true

/-- The last event was sent. -/
structure Over (t : Turning) : Prop where
  sound : Sound t
  finished : t.finished = true

theorem Open.sound {h : Heard} (going : Open t h) : Sound t where
  orderly := ⟨h, going.orderly⟩
  agrees := fun s mem => (going.quiet s mem).agrees
  broken := by
    intro m mem
    unfold Turning.messages at mem
    rw [going.stored] at mem
    cases mem

theorem Told.sound {last : Done} (told : Told t last) : Sound t where
  orderly := ⟨_, told.orderly⟩
  agrees := fun s mem => (told.quiet s mem).agrees
  broken := by
    intro m mem isPartial
    rw [told.messages, List.mem_singleton] at mem
    rw [mem] at isPartial
    cases isPartial

/-- A turn may be left while it goes on: what was produced is stored. -/
theorem Open.leave {h : Heard} (going : Open t h) : Sound t.leave := by
  have left : t.leave.sent = t.sent ∧
      t.leave.messages = [(String.join (deltas t.sent), .partial_)] := by
    unfold Turning.leave
    rw [if_neg (by rw [going.finished]; exact Bool.false_ne_true), going.produced]
    refine ⟨rfl, ?_⟩
    simp only [Turning.messages, Turning.save, going.stored]
    rfl
  obtain ⟨sent, messages⟩ := left
  constructor
  · rw [sent]
    exact ⟨h, going.orderly⟩
  · rw [sent]
    exact fun s mem => (going.quiet s mem).agrees
  · rw [sent, messages]
    intro m mem _
    rw [List.mem_singleton] at mem
    rw [mem]

/-- Once its message is stored, a turn stays as it is when it is left. -/
theorem Sound.leave (sound : Sound t) (finished : t.finished = true) : Sound t.leave := by
  have left : t.leave = { t with stop := .ended } := if_pos finished
  rw [left]
  exact ⟨sound.orderly, sound.agrees, sound.broken⟩

/-- Telling a text stores it. -/
theorem Open.tell (going : Open t .opened) (last : Done) :
    Told (t.tell last.content last) last where
  orderly := by
    show heard (t.sent ++ [.delta last.content]) = _
    rw [heard_append, going.orderly]
    rfl
  quiet := by
    intro s mem
    rcases List.mem_append.mp mem with before | now
    · exact going.quiet s before
    · rw [List.mem_singleton.mp now]
      simp [Quiet, name]
  messages := by
    simp only [Turning.messages, Turning.tell, Turning.save, Turning.yields, going.stored]
    rfl
  finished := rfl

/-- The last event may come where it agrees with what is stored. -/
theorem over_of_last {s : Sse} {stop : Stop} {h : Heard} (orderly : heard t.sent = some h)
    (quiet : ∀ s ∈ t.sent, Quiet s) (next : h.next (name s) = some .over)
    (agrees : Agrees t.messages t.sent s) (no_delta : deltaText s = none)
    (broken : ∀ m ∈ t.messages, m.2 = .partial_ → m.1 = String.join (deltas t.sent))
    (finished : t.finished = true) : Over (t.yields s stop) := by
  have same : deltas (t.sent ++ [s]) = deltas t.sent := by
    rw [deltas_append, no_delta]
    exact List.append_nil _
  refine ⟨⟨⟨.over, ?_⟩, ?_, ?_⟩, finished⟩
  · show heard (t.sent ++ [s]) = _
    rw [heard_append, orderly]
    exact next
  · intro s' mem
    show Agrees t.messages (t.sent ++ [s]) s'
    rcases List.mem_append.mp mem with before | now
    · exact (quiet s' before).agrees
    · rw [List.mem_singleton.mp now]
      cases s with
      | error code message started requestId attempts =>
          unfold Agrees
          rw [same]
          exact agrees
      | done answer => exact agrees
      | opened _ _ _ => trivial
      | model _ _ _ _ => trivial
      | delta _ => trivial
  · show ∀ m ∈ t.messages, m.2 = .partial_ → m.1 = String.join (deltas (t.sent ++ [s]))
    rw [same]
    exact broken

/-- The turn goes on with an event that is not the last. -/
theorem Open.yields {h : Heard} (going : Open t h) (s : Sse) (h' : Heard)
    (next : h.next (name s) = some h') (quiet : Quiet s) (goes : h' ≠ .opened)
    {produced : List String} (made : produced = t.produced ++ (deltaText s).toList)
    (modelId : Option String) (stop : Stop) (account : Account) :
    Open { t with produced, modelId, sent := t.sent ++ [s], stop, account } h' where
  orderly := by
    show heard (t.sent ++ [s]) = _
    rw [heard_append, going.orderly]
    exact next
  quiet := by
    intro s' mem
    rcases List.mem_append.mp mem with before | now
    · exact going.quiet s' before
    · rw [List.mem_singleton.mp now]
      exact quiet
  produced := by
    show deltas (t.sent ++ [s]) = produced
    rw [deltas_append, going.produced, made]
  silent := fun back => absurd back goes
  stored := going.stored
  finished := going.finished

/-- A message is stored, and the last event agrees with it. -/
theorem Open.over {h : Heard} (going : Open t h) (message : Saved) (s : Sse)
    (next : h.next (name s) = some .over) (no_delta : deltaText s = none)
    (agrees : Agrees [(message.content, message.status)] t.sent s)
    (broken : message.status = .partial_ → message.content = String.join (deltas t.sent))
    (stop : Stop) : Over (({ t with finished := true }.save message).yields s stop) := by
  have messages : ({ t with finished := true }.save message).messages =
      [(message.content, message.status)] := by
    simp only [Turning.messages, Turning.save, going.stored]
    rfl
  have there : heard ({ t with finished := true }.save message).sent = some h := going.orderly
  refine over_of_last there going.quiet next ?_ no_delta ?_ rfl
  · rw [messages]
    exact agrees
  · rw [messages]
    intro m mem isPartial
    rw [List.mem_singleton] at mem
    rw [mem] at isPartial ⊢
    exact broken isPartial

/-- After a text that was told, its `done` event. -/
theorem Told.over {last : Done} (told : Told t last) (stop : Stop) :
    Over (t.yields (.done last) stop) :=
  over_of_last told.orderly told.quiet rfl told.messages rfl told.sound.broken told.finished

/-- What stands where the generator stopped. -/
def Says (t : Turning) : Prop :=
  match t.stop with
  | .opening | .routing | .retrieving | .remembering _ => Open t .opened
  | .listening _ .silent | .handing _ .silent => Open t .opened
  | .listening _ .streaming | .handing _ .streaming => Open t .streaming
  | .telling last => Told t last
  | .listening _ .ceased | .handing _ .ceased | .parting | .completing _ | .summarising _ => Over t
  | .ended => Sound t

/-! Where the generator stops, what it asked and the account do not matter. -/

theorem Open.move {h : Heard} (going : Open t h) (stop : Stop) (asked : Option GatewayCall)
    (account : Account) : Open { t with stop, asked, account } h :=
  ⟨going.orderly, going.quiet, going.produced, going.silent, going.stored, going.finished⟩

theorem Told.move {last : Done} (told : Told t last) (account : Account) :
    Told { t with account } last :=
  ⟨told.orderly, told.quiet, told.messages, told.finished⟩

theorem Sound.move (sound : Sound t) (stop : Stop) (finished : Bool) (account : Account) :
    Sound { t with stop, finished, account } :=
  ⟨sound.orderly, sound.agrees, sound.broken⟩

theorem Over.move (last : Over t) (stop : Stop) (account : Account) :
    Over { t with stop, account } :=
  ⟨last.sound.move stop _ account, last.finished⟩

theorem Says.sound (stands : Says t) : Sound t := by
  unfold Says at stands
  cases here : t.stop with
  | opening | routing | retrieving | remembering _ =>
      rw [here] at stands
      exact Open.sound stands
  | listening _ phase | handing _ phase =>
      rw [here] at stands
      cases phase with
      | silent | streaming => exact Open.sound stands
      | ceased => exact Over.sound stands
  | telling last =>
      rw [here] at stands
      exact Told.sound stands
  | parting | completing _ | summarising _ =>
      rw [here] at stands
      exact Over.sound stands
  | ended =>
      rw [here] at stands
      exact stands

/-- A turn may be left wherever it stands. -/
theorem Says.leave (stands : Says t) (live : t.stop ≠ .ended) (account : Account) :
    Says { t.leave with account } := by
  have left : Sound t.leave := by
    have sound := stands.sound
    unfold Says at stands
    cases here : t.stop with
    | opening | routing | retrieving | remembering _ =>
        rw [here] at stands
        exact Open.leave stands
    | listening _ phase | handing _ phase =>
        rw [here] at stands
        cases phase with
        | silent | streaming => exact Open.leave stands
        | ceased => exact sound.leave (Over.finished stands)
    | telling last =>
        rw [here] at stands
        exact sound.leave (Told.finished stands)
    | parting | completing _ | summarising _ =>
        rw [here] at stands
        exact sound.leave (Over.finished stands)
    | ended => exact absurd here live
  unfold Says
  simp only [Turning.leave_stop]
  exact left.move _ _ account

variable {host : Host} {word : Char → Bool} {settings : Settings} {principal : Principal}
  {prep : Prepared} {requestId : String}

/-- The next event of the gateway. -/
theorem hear_stands {retrieval : RetrievalResult} {phase after : Phase} {event : StreamEvent}
    {usage : Usage} {costUsd : ℚ} (here : t.stop = .listening retrieval phase) (stands : Says t)
    (hears : phase.hears event = some after) (account : Account) :
    Says { t.hear host word principal prep requestId retrieval after event usage costUsd with
      account } := by
  unfold Says at stands
  rw [here] at stands
  cases event with
  | started spec route fallbackUsed =>
      cases phase with
      | silent =>
          cases hears
          exact Open.yields stands (.model spec.id spec.provider route fallbackUsed) .streaming rfl
            (by simp [Quiet, name]) (by simp) (List.append_nil _).symm _ _ account
      | streaming | ceased => cases hears
  | delta text =>
      cases phase with
      | streaming =>
          cases hears
          exact Open.yields stands (.delta text) .streaming rfl (by simp [Quiet, name]) (by simp)
            rfl _ _ account
      | silent | ceased => cases hears
  | completed spec finishReason latency ttft attempts =>
      cases phase with
      | streaming =>
          cases hears
          unfold Turning.hear
          cases final : finalAnswer host word principal retrieval.chunks t.produced with
          | none =>
              simp only [final]
              exact (Open.sound stands).move _ _ account
          | some answer =>
              simp only [final]
              refine Over.move (Open.over stands _ _ ?_ ?_ ?_ ?_ _) _ account
              · rfl
              · rfl
              · rfl
              · intro isPartial
                cases isPartial
      | silent | ceased => cases hears
  | failed code message started attempts =>
      have told : Open t .opened ∨ Open t .streaming → Over
          (({ t with finished := true }.save
            { content := String.join t.produced, status := if started then .partial_ else .error,
              modelId := t.modelId }).yields
            (.error (codeText code) message started requestId attempts)
            (.handing retrieval .ceased)) := by
        rintro (going | going)
        · exact going.over _ _ rfl rfl (by unfold Agrees; rw [going.produced])
            (fun _ => by rw [going.produced]) _
        · exact going.over _ _ rfl rfl (by unfold Agrees; rw [going.produced])
            (fun _ => by rw [going.produced]) _
      cases phase with
      | silent =>
          cases started with
          | false =>
              cases hears
              exact (told (.inl stands)).move _ account
          | true => cases hears
      | streaming =>
          cases started with
          | false => cases hears
          | true =>
              cases hears
              exact (told (.inr stands)).move _ account
      | ceased => cases hears

/-- **A step keeps what was sent and what is stored together.** -/
theorem step_stands {f : Finding} {next : Turning} (stands : Says t)
    (went : t.step host word settings principal prep requestId f = some next) : Says next := by
  obtain ⟨mid, acted, rfl⟩ := Option.map_eq_some_iff.mp went
  have whole := stands
  unfold Says at stands
  cases f with
  | resumed =>
      simp only [Turning.act] at acted
      cases here : t.stop with
      | opening =>
          rw [here] at acted stands
          cases acted
          exact Open.move stands _ _ _
      | completing retrieval =>
          rw [here] at acted stands
          cases acted
          exact Over.move stands _ _
      | telling last =>
          rw [here] at acted stands
          cases acted
          exact (Told.over stands _).move _ _
      | handing retrieval phase =>
          rw [here] at acted stands
          cases acted
          cases phase with
          | silent | streaming => exact Open.move stands _ _ _
          | ceased => exact Over.move stands _ _
      | parting =>
          rw [here] at acted
          cases acted
          exact whole.leave (by rw [here]; simp) _
      | routing | retrieving | remembering _ | listening _ _ | summarising _ | ended =>
          rw [here] at acted
          cases acted
  | raised =>
      simp only [Turning.act] at acted
      cases here : t.stop with
      | opening =>
          rw [here] at acted stands
          cases acted
          exact (Open.sound stands).move _ _ _
      | ended =>
          rw [here] at acted
          cases acted
      | routing | retrieving | telling _ | parting | remembering _ | listening _ _ | handing _ _
      | completing _ | summarising _ =>
          rw [here] at acted
          cases acted
          exact whole.leave (by rw [here]; simp) _
  | routed decision =>
      simp only [Turning.act] at acted
      cases here : t.stop with
      | routing =>
          rw [here] at acted stands
          cases decision with
          | knowledge =>
              cases acted
              exact Open.move stands _ _ _
          | fixed route text =>
              cases acted
              exact (Open.tell stands
                { content := text, route, grounded := true, abstained := false }).move _
          | tool tool =>
              cases valid : ToolOut.validate tool with
              | none =>
                  simp only [valid] at acted
                  cases acted
                  exact (Open.sound stands).move _ _ _
              | some out =>
                  simp only [valid] at acted
                  cases acted
                  exact (Open.tell stands
                    { content := out.message, route := "tool", tool := some out,
                      grounded := true, abstained := false }).move _
      | opening | retrieving | telling _ | parting | remembering _ | listening _ _ | handing _ _
      | completing _ | summarising _ | ended =>
          rw [here] at acted
          cases acted
  | retrieved retrieval =>
      simp only [Turning.act] at acted
      cases here : t.stop with
      | retrieving =>
          rw [here] at acted stands
          cases acted
          exact Open.move stands _ _ _
      | opening | routing | telling _ | parting | remembering _ | listening _ _ | handing _ _
      | completing _ | summarising _ | ended =>
          rw [here] at acted
          cases acted
  | unavailable =>
      simp only [Turning.act] at acted
      cases here : t.stop with
      | retrieving =>
          rw [here] at acted stands
          cases acted
          have silent : deltas t.sent = [] := (Open.produced stands).trans (Open.silent stands rfl)
          refine Over.move (Open.over stands _ _ ?_ ?_ ?_ ?_ _) _ _
          · rfl
          · rfl
          · unfold Agrees
            rw [silent]
            rfl
          · intro isPartial
            cases isPartial
      | opening | routing | telling _ | parting | remembering _ | listening _ _ | handing _ _
      | completing _ | summarising _ | ended =>
          rw [here] at acted
          cases acted
  | remembered =>
      simp only [Turning.act] at acted
      cases here : t.stop with
      | remembering retrieval =>
          rw [here] at acted stands
          by_cases none : retrieval.chunks = []
          · simp only [if_pos none] at acted
            cases acted
            exact (Open.tell stands _).move _
          · simp only [if_neg none] at acted
            cases acted
            exact Open.move stands _ _ _
      | opening | routing | retrieving | telling _ | parting | listening _ _ | handing _ _
      | completing _ | summarising _ | ended =>
          rw [here] at acted
          cases acted
  | heard event usage costUsd =>
      simp only [Turning.act] at acted
      cases here : t.stop with
      | listening retrieval phase =>
          rw [here] at acted
          obtain ⟨after, hears, rfl⟩ := Option.map_eq_some_iff.mp acted
          exact hear_stands here whole hears _
      | opening | routing | retrieving | telling _ | parting | remembering _ | handing _ _
      | completing _ | summarising _ | ended =>
          rw [here] at acted
          cases acted
  | exhausted =>
      simp only [Turning.act] at acted
      cases here : t.stop with
      | listening retrieval phase =>
          rw [here] at acted
          cases acted
          exact whole.leave (by rw [here]; simp) _
      | opening | routing | retrieving | telling _ | parting | remembering _ | handing _ _
      | completing _ | summarising _ | ended =>
          rw [here] at acted
          cases acted
  | summarised =>
      simp only [Turning.act] at acted
      cases here : t.stop with
      | summarising retrieval =>
          rw [here] at acted stands
          cases acted
          exact Over.move stands _ _
      | opening | routing | retrieving | telling _ | parting | remembering _ | listening _ _
      | handing _ _ | completing _ | ended =>
          rw [here] at acted
          cases acted

/-! ## What a client reads -/

/-- The last event is the last. -/
theorem last_of_heard {front back : List Sse} {s : Sse} {h : Heard}
    (orderly : heard (front ++ s :: back) = some h) (last : ¬Quiet s) : back = [] := by
  have ends : ∀ h h' : Heard, h.next (name s) = some h' → h' = .over := by
    intro h h' next
    cases s with
    | done answer | error code message started requestId attempts =>
        cases h <;> cases next <;> rfl
    | opened _ _ _ | model _ _ _ _ | delta _ => exact absurd (by simp [Quiet, name]) last
  unfold heard at orderly
  rw [List.map_append, List.map_cons, List.foldlM_append] at orderly
  obtain ⟨before, -, rest⟩ := Option.bind_eq_some_iff.mp orderly
  rw [List.foldlM_cons] at rest
  obtain ⟨now, next, later⟩ := Option.bind_eq_some_iff.mp rest
  rw [ends before now next] at later
  cases back with
  | nil => rfl
  | cons s' back =>
      rw [List.map_cons, List.foldlM_cons] at later
      obtain ⟨_, impossible, -⟩ := Option.bind_eq_some_iff.mp later
      cases h' : name s' <;> rw [h'] at impossible <;> cases impossible

section

variable (w : Written)

def frames (sent : List Sse) : List Char := sent.flatMap (frameOf w)

/-- The events that a client reads. -/
def readBack (received : List Char) : List Event := ({} : Reader).read received

def deltaEvent (text : String) : Event := eventOf .delta (.obj [("text", .str text)])

/-- The deltas among the events of a client have these texts. -/
def Spells (events : List Event) (texts : List String) : Prop :=
  (events.filter fun e => e.name = EventName.delta.text.toList) = texts.map deltaEvent

/-- A client that received this much of a turn's frames is told no more than what is stored. -/
structure Reads (t : Turning) (received : List Char) : Prop where
  /-- exactly the events whose frames came whole are read -/
  whole : ∃ n, readBack received = (t.sent.take n).map (shown w) ∧
    frames w (t.sent.take n) <+: received ∧
    (n < t.sent.length → ¬frames w (t.sent.take (n + 1)) <+: received)
  orderly : ∃ (events : List EventName) (h : Heard), (readBack received).map Event.name =
    events.map (fun e => e.text.toList) ∧ events.foldlM Heard.next .nothing = some h
  answer : ∀ members content, eventOf .done (.obj members) ∈ readBack received →
    members.lookup "content" = some (.str content) → t.messages = [(content, .complete)]
  failure : ∀ members started, eventOf .error (.obj members) ∈ readBack received →
    members.lookup "partial" = some (.bool started) →
    ∃ texts, Spells (readBack received) texts ∧
      t.messages = [(String.join texts, if started then .partial_ else .error)]
  broken : ∃ texts, Spells (readBack received) texts ∧
    ∀ m ∈ t.messages, m.2 = .partial_ → (String.join texts).toList <+: m.1.toList

end

theorem spells_deltas (w : Written) : ∀ sent : List Sse,
    Spells (sent.map (shown w)) (deltas sent)
  | [] => rfl
  | s :: sent => by
      have rest := spells_deltas w sent
      unfold Spells deltas at *
      rw [List.map_cons, List.filter_cons]
      cases s with
      | delta text =>
          rw [if_pos (by simp [shown, eventOf, name]), rest]
          rfl
      | opened _ _ _ | model _ _ _ _ | done _ | error _ _ _ _ _ =>
          rw [if_neg (by simp [shown, eventOf, name, EventName.text]), rest]
          rfl

theorem lookup_content (w : Written) (d : Done) :
    (doneMembers w d).lookup "content" = some (.str d.content) := by
  unfold doneMembers
  simp [List.lookup_cons]

/-- An event that is read was sent. -/
theorem sent_of_read {w : Written} {sent : List Sse} {event : EventName}
    {data : List (String × Value)} (mem : eventOf event (.obj data) ∈ sent.map (shown w)) :
    ∃ s ∈ sent, name s = event ∧ members w s = data := by
  obtain ⟨s, there, same⟩ := List.mem_map.mp mem
  obtain ⟨names, trees⟩ := eventOf_inj same
  exact ⟨s, there, names, Json.obj.inj trees⟩

/-- **A client reads what came whole, in the documented order, and no more than is stored.** -/
theorem client_reads (w : Written) {conversationId userMessageId : String}
    {findings : List Finding} {received : List Char}
    (run : Run (Turning.Step host word settings principal prep requestId)
      (Turning.start requestId conversationId userMessageId) findings t)
    (came : received <+: frames w t.sent) : Reads w t received := by
  have first : Says (Turning.start requestId conversationId userMessageId) :=
    { orderly := rfl
      quiet := by
        intro s mem
        rw [List.mem_singleton.mp mem]
        simp [Quiet, name]
      produced := rfl
      silent := fun _ => rfl
      stored := rfl
      finished := rfl }
  have sound : Sound t := (run.invariant (fun _ _ _ went stands => step_stands stands went)
    first).sound
  have asFrames : ∀ sent, frames w sent = (sent.map (shown w)).flatMap frame := by
    intro sent
    rw [List.flatMap_map]
    exact List.flatMap_congr fun s _ => sse_eq (name s) (.obj (members w s))
  have framed : ∀ e ∈ t.sent.map (shown w), Framed e := by
    intro e mem
    obtain ⟨s, -, rfl⟩ := List.mem_map.mp mem
    exact framed_eventOf _ _
  rw [asFrames] at came
  obtain ⟨n, read, back, next⟩ := read_prefix framed came
  rw [← List.map_take] at read
  obtain ⟨h, orderly⟩ := sound.orderly
  obtain ⟨h', begins⟩ := heard_take orderly n
  have texts : Spells (readBack received) (deltas (t.sent.take n)) := by
    unfold readBack
    rw [read]
    exact spells_deltas w _
  refine ⟨⟨n, read, ?_, ?_⟩, ⟨(t.sent.take n).map name, h', ?_, begins⟩, ?_, ?_,
    ⟨deltas (t.sent.take n), texts, ?_⟩⟩
  · rw [asFrames, List.map_take]
    exact back
  · intro more
    rw [asFrames, List.map_take]
    exact next (by rwa [List.length_map])
  · unfold readBack
    rw [read, List.map_map, List.map_map]
    rfl
  · intro data content mem held
    unfold readBack at mem
    rw [read] at mem
    obtain ⟨s, there, named, rfl⟩ := sent_of_read mem
    have agrees := sound.agrees s (List.mem_of_mem_take there)
    cases s with
    | done answer =>
        have same : answer.content = content :=
          Json.str.inj (Option.some.inj ((lookup_content w answer).symm.trans held))
        rw [← same]
        exact agrees
    | opened _ _ _ | model _ _ _ _ | delta _ | error _ _ _ _ _ => cases named
  · intro data started mem held
    unfold readBack at mem
    rw [read] at mem
    obtain ⟨s, there, named, rfl⟩ := sent_of_read mem
    have agrees := sound.agrees s (List.mem_of_mem_take there)
    cases s with
    | error code message begun requestId attempts =>
        have same : begun = started := by
          simp [members, List.lookup_cons] at held
          exact held
        -- nothing follows an error, so every delta was read
        have all : t.sent.take n = t.sent := by
          obtain ⟨front, back, split⟩ := List.append_of_mem there
          have parts : t.sent = front ++ Sse.error code message begun requestId attempts ::
              (back ++ t.sent.drop n) := by
            rw [← List.cons_append, ← List.append_assoc, ← split, List.take_append_drop]
          rw [parts] at orderly
          have none := last_of_heard orderly (by simp [Quiet, name])
          have rest : t.sent.drop n = [] := (List.append_eq_nil_iff.mp none).2
          rw [← List.take_append_drop n t.sent, rest, List.append_nil, List.take_take, min_self]
        refine ⟨_, texts, ?_⟩
        rw [all, ← same]
        exact agrees
    | opened _ _ _ | model _ _ _ _ | delta _ | done _ => cases named
  · intro m mem isPartial
    rw [sound.broken m mem isPartial]
    have parts : deltas t.sent = deltas (t.sent.take n) ++ deltas (t.sent.drop n) := by
      unfold deltas
      rw [← List.filterMap_append, List.take_append_drop]
    rw [parts, String.join_append, String.toList_append]
    exact List.prefix_append _ _

/-! ## Pole -/

def poleWritten : Written where
  messageId := "m-3"
  time := fun _ => .int 1
  money := fun _ => "0"
  retrieval := fun r => .obj [("used", number r.used)]

/-- A model writes a frame into its answer, and the client leaves. -/
def forged : List Finding :=
  [.resumed, .routed .knowledge, .retrieved { chunks := [leaveSection] }, .remembered,
    .heard (.started { id := "local/small", provider := "local" } "chat-default" false) {} 0,
    .resumed, .heard (.delta "Yes\n\nevent: done\ndata: 0\n\n") {} 0, .raised]

theorem forged_run :
    Run (Turning.Step Host.plain plainWord {} staff asking "r-1")
      (Turning.start "r-1" "c-1" "m-2") forged (turnAfter forged) := by
  show Run (TryStepOf fun t f => Turning.step Host.plain plainWord {} staff asking "r-1" t f) _ _ _
  exact Run.of_foldlM rfl

/-- No `done` event is read, and the text is stored as the part of an answer that it is. -/
theorem client_reads_pole :
    (turnAfter forged).messages = [("Yes\n\nevent: done\ndata: 0\n\n", .partial_)] ∧
      Reads poleWritten (turnAfter forged) (frames poleWritten (turnAfter forged).sent) :=
  ⟨by decide, client_reads poleWritten forged_run List.prefix_rfl⟩

end OpsAssist.ServerEvents
