/-
# OpsAssist.Providers.Ollama -- the adapter for Ollama's own API

Its streams are lines of JSON, and a chunk that is done is the last.  As with the other adapter,
`chat_translated_iff`, `stream_translated_iff` and `embed_translated_iff` say which answers give a
well-formed result or an error of the hierarchy.
-/
import OpsAssist.Providers.Anthropic
import OpsAssist.Providers.Wire

namespace OpsAssist.Ollama

set_option autoImplicit false

open Theory Dynamic Wire
open Anthropic (ChatParams)

/-! ## The adapter -/

structure OllamaProvider where
  name : String := "ollama"
  keepAlive : String := "10m"

/-- `_TASK_PREFIXES` -/
def TASK_PREFIXES : List (String × List (String × String)) :=
  [("nomic-embed-text", [("query", "search_query: "), ("passage", "search_document: ")])]

/-- `_TASK_PREFIXES.get(model.split(":")[0], {}).get(input_type, "")` -/
def taskPrefix (model inputType : String) : String :=
  let base := String.ofList (model.toList.takeWhile (· ≠ ':'))
  (((TASK_PREFIXES.lookup base).getD []).lookup inputType).getD ""

/-- `_usage` -/
def usage (data : Value) (messages : List String) (completion : Value) : Except Fault Usage :=
  usageOr (reportedUsage "prompt_eval_count" "eval_count" data) messages completion

section

variable (pl : Platform) (p : OllamaProvider)

/-- `_chat_payload` -/
def chatPayload (model : String) (messages : List ChatMessage) (params : ChatParams)
    (stream : Bool) : Value :=
  .obj [("model", .str model), ("messages", messageObjects messages), ("stream", .bool stream),
    ("keep_alive", .str p.keepAlive),
    ("options", .obj (("num_predict", .num (.int params.maxTokens)) ::
      match params.temperature with
      | some t => [("temperature", .num t)]
      | none => []))]

/-- What is left once an answer is a JSON object. -/
def readChat (messages : List ChatMessage) (data : Value) : Except Escaped ChatResult := do
  let content ← convert isMissing (responseError p.name "malformed chat response") .fault
    (do return orElse (← item "content" (← item "message" data)) (.str ""))
  let usage ← unguarded (usage data (contents messages) content)
  let finishReason ← unguarded (getKey "done_reason" data)
  return { content, usage, finishReason }

/-- `chat` -/
def chat (server : Peer) (model : String) (messages : List ChatMessage) (params : ChatParams) :
    Except Escaped ChatResult := do
  let data ← postJson pl p.name (fun _ => none)
    (server.post "/api/chat" (chatPayload p model messages params false))
  readChat p messages data

/-- `ProviderUnavailable(self.name, str(chunk["error"])[:200])` -/
def reported (chunk : Value) : Escaped :=
  match (do pl.str (← item "error" chunk)) with
  | .error f => .fault f
  | .ok text =>
      .provider (providerError p.name .unavailable (String.ofList (text.toList.take 200)))

/-- The state is the last chunk, once there is one. -/
def chunkReading (chunk : Value) : Reading Value Value Escaped :=
  match holds "error" chunk with
  | .error f => .raise [] (.fault f)
  | .ok true => .raise [] (reported pl p chunk)
  | .ok false =>
      match (do contentOf (← getKey "message" chunk)) with
      | .error f => .raise [] (.fault f)
      | .ok text =>
          match getKey "done" chunk with
          | .error f => .raise (said text) (.fault f)
          | .ok done =>
              if truthy done then .stop (said text) fun _ => chunk else .next (said text) id

def lineReading (line : String) : Reading Value Value Escaped :=
  if Text.strip line.toList = [] then .next [] id
  else
    match convert (· = .decode) (responseError p.name "malformed stream chunk") .fault
        (pl.loads line) with
    | .error e => .raise [] e
    | .ok chunk => chunkReading pl p chunk

/-- What is made of the texts and of the last chunk. -/
def finish (messages : List ChatMessage) (produced : List Value) (final : Value) :
    Except Escaped StreamEnd :=
  if truthy final then do
    let completion ← unguarded (joined produced)
    let usage ← unguarded (usage final (contents messages) completion)
    let finishReason ← unguarded (getKey "done_reason" final)
    return { usage, finishReason }
  else .error (responseError p.name "stream ended without a final chunk")

/-- The lines of a stream that has been opened. -/
def readStream (messages : List ChatMessage) (r : StreamResponse) : Streamed :=
  afterLines p.name r.breaks (finish p messages) (.obj []) (readAll (lineReading pl p) r.lines)

/-- `stream_chat` -/
def streamChat (server : Peer) (model : String) (messages : List ChatMessage)
    (params : ChatParams) : Streamed :=
  openStream pl p.name (fun _ => none) (readStream pl p messages)
    (server.stream "/api/chat" (chatPayload p model messages params true))

def embedPayload (model : String) (inputs : List String) (inputType : String) : Value :=
  .obj [("model", .str model),
    ("input", .arr (inputs.map fun t => .str (taskPrefix model inputType ++ t))),
    ("keep_alive", .str p.keepAlive)]

def readEmbeddings (inputs : List String) (data : Value) : Except Escaped EmbeddingResult := do
  let vectors ← convert isMisread (responseError p.name "malformed embedding response") .fault
    (do vectorsOf pl .ok (← items (← item "embeddings" data)))
  if vectors.length ≠ inputs.length then
    throw (responseError p.name "embedding count mismatch")
  let tokens ← unguarded (getKey "prompt_eval_count" data)
  let usage ← unguarded (embedUsage tokens inputs)
  return { vectors, usage }

/-- `embed` -/
def embed (server : Peer) (model : String) (inputs : List String) (inputType : String) :
    Except Escaped EmbeddingResult := do
  let data ← postJson pl p.name (fun _ => none)
    (server.post "/api/embed" (embedPayload p model inputs inputType))
  readEmbeddings pl p inputs data

end

/-! ## Chat -/

/-- Usage is reported as it should be, or not at all. -/
abbrev UsageFits (data : Value) : Prop := Reports "prompt_eval_count" "eval_count" data

/-- Where an answer has a message with a content, this is a text or nothing, and the usage fits. -/
def ChatFits (members : List (String × Value)) : Prop :=
  ∀ message content, memberOf "message" members = .obj message →
    message.lookup "content" = some content → TextOrNothing content ∧ UsageFits (.obj members)

section

variable {pl : Platform} {p : OllamaProvider}

theorem usage_text {data : Value} {messages : List String} {s : String} :
    (∃ u, usage data messages (.str s) = .ok u) ↔ UsageFits data :=
  usageOr_text.trans reportedUsage_ok

/-- The content of the message of an answer. -/
def messageContent (data : Value) : Except Fault Value := do
  item "content" (← item "message" data)

theorem messageContent_ok {members : List (String × Value)} {content : Value} :
    messageContent (.obj members) = .ok content ↔
      ∃ message, memberOf "message" members = .obj message ∧
        message.lookup "content" = some content := by
  unfold messageContent
  simp only [bind_ok_iff, item_ok, Json.obj.injEq, exists_eq_left']
  constructor
  · rintro ⟨_, there, message, rfl, here⟩
    exact ⟨message, by rw [memberOf, there]; rfl, here⟩
  · rintro ⟨message, there, here⟩
    cases found : members.lookup "message" with
    | none => simp [memberOf, found] at there
    | some v =>
        rw [memberOf, found] at there
        exact ⟨v, rfl, message, there, here⟩

theorem messageContent_fault {data : Value} {f : Fault} (raised : messageContent data = .error f) :
    isMissing f = true := by
  rcases bind_error_iff.mp raised with here | ⟨message, -, here⟩
  · rcases item_fault here with rfl | rfl <;> rfl
  · rcases item_fault here with rfl | rfl <;> rfl

theorem readChat_translated_iff {messages : List ChatMessage} {members : List (String × Value)} :
    Translated GoodChat (readChat p messages (.obj members)) ↔ ChatFits members := by
  have shape :
      (do return orElse (← item "content" (← item "message" (.obj members))) (.str "")) =
        (messageContent (.obj members)).map fun content => orElse content (.str "") := by
    unfold messageContent
    cases item "message" (.obj members) with
    | error f => rfl
    | ok message => cases item "content" message <;> rfl
  unfold readChat
  rw [translated_bind, translated_convert, shape]
  cases found : messageContent (.obj members) with
  | error f =>
      refine iff_of_true (messageContent_fault found) fun message content there here => ?_
      cases found.symm.trans (messageContent_ok.mpr ⟨message, there, here⟩)
  | ok content =>
      have one : ChatFits members ↔ TextOrNothing content ∧ UsageFits (.obj members) := by
        refine ⟨fun fits => ?_, fun both message content' there here => ?_⟩
        · obtain ⟨message, there, here⟩ := messageContent_ok.mp found
          exact fits message content there here
        · cases found.symm.trans (messageContent_ok.mpr ⟨message, there, here⟩)
          exact both
      rw [one, ← orElse_text]
      simp only [Except.map, translated_unguarded, getKey_obj, Except.ok.injEq, exists_eq_left']
      constructor
      · rintro ⟨u, read, s, same⟩
        have text : orElse content (.str "") = .str s := same
        rw [text] at read
        exact ⟨⟨s, text⟩, usage_text.mp ⟨u, read⟩⟩
      · rintro ⟨⟨s, text⟩, fits⟩
        rw [text]
        obtain ⟨u, read⟩ := usage_text.mpr fits
        exact ⟨u, read, s, rfl⟩

/-- **Which answers `chat` translates.** -/
theorem chat_translated_iff {server : Peer} {model : String} {messages : List ChatMessage}
    {params : ChatParams} : Translated GoodChat (chat pl p server model messages params) ↔
      AnswerFits pl ChatFits
        (server.post "/api/chat" (chatPayload p model messages params false)) :=
  postJson_translated_iff fun _ _ => readChat_translated_iff

end

/-! ## Streams -/

section

variable (pl : Platform)

/-- The chunk a line carries, unless it is blank. -/
def chunkOf (line : String) : Option (Except Fault Value) :=
  if Text.strip line.toList = [] then none else some (pl.loads line)

/-- The chunk reports no error, has a message that is read, and is not done. -/
def goes : Value → Bool
  | .obj members =>
      (members.lookup "error").isNone && readable (memberOf "message" members) &&
        !truthy (memberOf "done" members)
  | _ => false

/-- The line ends the stream: it is no JSON, or carries a chunk after which nothing is read. -/
def ends (line : String) : Bool :=
  match chunkOf pl line with
  | none => false
  | some (.error _) => true
  | some (.ok chunk) => !goes chunk

/-- The chunk is the last, and reports no error. -/
def IsLast (chunk : Value) : Prop :=
  ∃ members, chunk = .obj members ∧ members.lookup "error" = none ∧
    readable (memberOf "message" members) = true ∧ truthy (memberOf "done" members) = true

/-- What a chunk says. -/
def fragments : Value → List Value
  | .obj members =>
      if (members.lookup "error").isSome then [] else said (contentIn (memberOf "message" members))
  | _ => []

def lineFragments (line : String) : List Value :=
  match chunkOf pl line with
  | some (.ok chunk) => fragments chunk
  | _ => []

/-- An object: the error it reports has a text, or else its message is nothing or an object with a
text or nothing as its content. -/
def ChunkFits (chunk : Value) : Prop :=
  ∃ members, chunk = .obj members ∧
    (∀ e, members.lookup "error" = some e → ∃ s, pl.str e = .ok s) ∧
    (members.lookup "error" = none → ContentFits (memberOf "message" members))

/-- A blank line, one that is no JSON, or one with a fitting chunk. -/
def LineFits (line : String) : Prop :=
  ∀ read, chunkOf pl line = some read →
    (∀ f, read = .error f → f = .decode) ∧ ∀ chunk, read = .ok chunk → ChunkFits pl chunk

/-- The last chunk a response has, if the line that ends the stream carries it. -/
def Final (lines : List String) (chunk : Value) : Prop :=
  ∃ line, lines.find? (ends pl) = some line ∧ chunkOf pl line = some (.ok chunk) ∧ IsLast chunk

/-- The lines up to the one that ends the stream fit, and the usage of the last chunk does. -/
def StreamFits (r : StreamResponse) : Prop :=
  (∀ line ∈ upTo (ends pl) r.lines, LineFits pl line) ∧
    ∀ chunk, Final pl r.lines chunk → UsageFits chunk

end

section

variable {pl : Platform} {p : OllamaProvider}

theorem chunkReading_holds {chunk : Value} {found : Bool}
    (there : holds "error" chunk = .ok found) (missing : item "error" chunk = .error .type)
    (unread : getKey "message" chunk = .error .attribute) :
    ∃ f, chunkReading pl p chunk = .raise [] (.fault f) := by
  unfold chunkReading reported
  rw [there, missing, unread]
  cases found with
  | true => exact ⟨.type, rfl⟩
  | false => exact ⟨.attribute, rfl⟩

/-- A chunk that is no object raises. -/
theorem chunkReading_other {chunk : Value} (other : ∀ members, chunk ≠ .obj members) :
    goes chunk = false ∧ ¬IsLast chunk ∧ fragments chunk = [] ∧ ¬ChunkFits pl chunk ∧
      ∃ f, chunkReading pl p chunk = .raise [] (.fault f) := by
  have unlast : ¬IsLast chunk := fun ⟨members, same, _⟩ => other members same
  have unfit : ¬ChunkFits pl chunk := fun ⟨members, same, _⟩ => other members same
  cases chunk with
  | obj members => exact absurd rfl (other members)
  | arr vs => exact ⟨rfl, unlast, rfl, unfit, chunkReading_holds rfl rfl rfl⟩
  | str s => exact ⟨rfl, unlast, rfl, unfit, chunkReading_holds rfl rfl rfl⟩
  | _ => exact ⟨rfl, unlast, rfl, unfit, .type, rfl⟩

/-- A chunk that reports an error raises. -/
theorem chunkReading_error {members : List (String × Value)} {e : Value}
    (there : members.lookup "error" = some e) :
    chunkReading pl p (.obj members) = .raise [] (reported pl p (.obj members)) ∧
      (IsProvider (reported pl p (.obj members)) ↔ ∃ s, pl.str e = .ok s) := by
  have found : item "error" (.obj members) = .ok e := item_ok.mpr ⟨members, rfl, there⟩
  constructor
  · simp [chunkReading, holds, there]
  · unfold reported
    rw [found]
    cases said : pl.str e <;> simp [bind, Except.bind, said, IsProvider]

/-- Another chunk says its content, if it has one that is read. -/
theorem chunkReading_message {members : List (String × Value)}
    (silent : members.lookup "error" = none) : chunkReading pl p (.obj members) =
      if readable (memberOf "message" members) then
        if truthy (memberOf "done" members) then
          .stop (said (contentIn (memberOf "message" members))) fun _ => .obj members
        else .next (said (contentIn (memberOf "message" members))) id
      else .raise [] (.fault .attribute) := by
  have text : ((.ok (memberOf "message" members) : Except Fault Value) >>= contentOf) =
      if readable (memberOf "message" members) then
        .ok (contentIn (memberOf "message" members)) else .error .attribute :=
    contentOf_eq _
  simp only [chunkReading, holds, silent, Option.isSome_none, getKey_obj, text]
  by_cases reads : readable (memberOf "message" members) = true
  · simp only [reads, if_true]
  · simp only [reads, Bool.false_eq_true, if_false]

/-- **What a chunk does**: it says its content and goes on, raises, or says its content and is the
last. -/
theorem chunk_cases (chunk : Value) :
    (goes chunk = true ∧ ¬IsLast chunk ∧ chunkReading pl p chunk = .next (fragments chunk) id) ∨
    (goes chunk = false ∧ ¬IsLast chunk ∧ fragments chunk = [] ∧
      ∃ e, chunkReading pl p chunk = .raise [] e) ∨
    (goes chunk = false ∧ IsLast chunk ∧
      chunkReading pl p chunk = .stop (fragments chunk) fun _ => chunk) := by
  by_cases shape : ∃ members, chunk = .obj members
  · obtain ⟨members, rfl⟩ := shape
    unfold goes IsLast fragments
    simp only [Json.obj.injEq, exists_eq_left']
    cases there : members.lookup "error" with
    | some e => exact .inr (.inl ⟨rfl, by simp, rfl, _, (chunkReading_error there).1⟩)
    | none =>
        rw [chunkReading_message there]
        cases reads : readable (memberOf "message" members) with
        | false =>
            refine .inr (.inl ⟨rfl, by simp, ?_, _, rfl⟩)
            simp [contentIn_unread reads, said]
        | true => cases truthy (memberOf "done" members) <;> simp
  · obtain ⟨off, other, nothing, -, f, raises⟩ :=
      @chunkReading_other pl p chunk fun members same => shape ⟨members, same⟩
    exact .inr (.inl ⟨off, other, nothing, _, raises⟩)

/-- A chunk hands on texts and raises errors of the hierarchy only just when it fits. -/
theorem chunk_fine_iff {chunk : Value} :
    (chunkReading pl p chunk).Fine IsText IsProvider ↔ ChunkFits pl chunk := by
  by_cases shape : ∃ members, chunk = .obj members
  · obtain ⟨members, rfl⟩ := shape
    unfold ChunkFits
    simp only [Json.obj.injEq, exists_eq_left']
    cases there : members.lookup "error" with
    | some e =>
        obtain ⟨raises, provider⟩ := @chunkReading_error pl p _ _ there
        rw [raises]
        refine Iff.trans ⟨fun fine => fine.2 _ _ rfl, fun kind => ⟨nofun, ?_⟩⟩
          (provider.trans (by simp))
        intro out raised same
        cases same
        exact kind
    | none =>
        rw [chunkReading_message there]
        simp only [reduceCtorEq, false_implies, implies_true, true_and, forall_const,
          contentFits_iff, ← allTexts_said]
        by_cases reads : readable (memberOf "message" members) = true
        · rw [if_pos reads, and_iff_right reads]
          split
          · exact ⟨fun fine => fine.1, fun all => ⟨all, nofun⟩⟩
          · exact ⟨fun fine => fine.1, fun all => ⟨all, nofun⟩⟩
        · rw [if_neg reads]
          exact iff_of_false (fun fine => fine.2 _ _ rfl) fun both => reads both.1
  · obtain ⟨-, -, -, unfit, f, raises⟩ :=
      @chunkReading_other pl p chunk fun members same => shape ⟨members, same⟩
    rw [raises]
    exact iff_of_false (fun fine => fine.2 _ _ rfl) unfit

/-- What a line is read as. -/
theorem lineReading_eq (line : String) : lineReading pl p line =
    match chunkOf pl line with
    | none => .next [] id
    | some (.ok chunk) => chunkReading pl p chunk
    | some (.error f) =>
        .raise [] (if f = .decode then responseError p.name "malformed stream chunk" else .fault f)
    := by
  unfold lineReading chunkOf
  by_cases blank : Text.strip line.toList = []
  · rw [if_pos blank, if_pos blank]
  · rw [if_neg blank, if_neg blank]
    cases pl.loads line <;> simp [convert]

/-- **What a line does.** -/
theorem line_cases (line : String) :
    (ends pl line = false ∧ (∀ chunk, chunkOf pl line = some (.ok chunk) → ¬IsLast chunk) ∧
      lineReading pl p line = .next (lineFragments pl line) id) ∨
    (ends pl line = true ∧ (∀ chunk, chunkOf pl line = some (.ok chunk) → ¬IsLast chunk) ∧
      lineFragments pl line = [] ∧ ∃ e, lineReading pl p line = .raise [] e) ∨
    (ends pl line = true ∧ ∃ chunk, chunkOf pl line = some (.ok chunk) ∧ IsLast chunk ∧
      lineReading pl p line = .stop (lineFragments pl line) fun _ => chunk) := by
  rw [lineReading_eq, ends, lineFragments]
  cases carries : chunkOf pl line with
  | none => exact .inl ⟨rfl, nofun, rfl⟩
  | some read =>
      cases read with
      | error f => exact .inr (.inl ⟨rfl, nofun, rfl, _, rfl⟩)
      | ok chunk =>
          simp only [Option.some.injEq, Except.ok.injEq, forall_eq', exists_eq_left']
          rcases @chunk_cases pl p chunk with ⟨on, other, reading⟩ | ⟨off, other, none, raises⟩ |
            ⟨off, last, reading⟩
          · exact .inl ⟨by rw [on]; rfl, other, reading⟩
          · exact .inr (.inl ⟨by rw [off]; rfl, other, none, raises⟩)
          · exact .inr (.inr ⟨by rw [off]; rfl, last, reading⟩)

theorem line_goes (line : String) : (lineReading pl p line).goesOn = !ends pl line := by
  rcases @line_cases pl p line with ⟨on, -, reading⟩ | ⟨off, -, -, e, reading⟩ |
    ⟨off, chunk, -, -, reading⟩
  · rw [on, reading]; rfl
  · rw [off, reading]; rfl
  · rw [off, reading]; rfl

theorem line_out (line : String) : (lineReading pl p line).out = lineFragments pl line := by
  rcases @line_cases pl p line with ⟨-, -, reading⟩ | ⟨-, -, none, e, reading⟩ |
    ⟨-, chunk, -, -, reading⟩
  · rw [reading]; rfl
  · rw [none, reading]; rfl
  · rw [reading]; rfl

theorem line_fine_iff (line : String) :
    (lineReading pl p line).Fine IsText IsProvider ↔ LineFits pl line := by
  unfold LineFits
  rw [lineReading_eq]
  cases carries : chunkOf pl line with
  | none => exact iff_of_true ⟨nofun, nofun⟩ nofun
  | some read =>
      simp only [Option.some.injEq, forall_eq']
      cases read with
      | ok chunk => simpa using chunk_fine_iff
      | error f =>
          by_cases kind : f = .decode
          · simp only [kind, if_true]
            exact iff_of_true ⟨nofun, fun out e same => by cases same; trivial⟩
              ⟨fun f same => by cases same; rfl, nofun⟩
          · simp only [kind, if_false]
            exact iff_of_false (fun fine => fine.2 _ _ rfl) fun fits => kind (fits.1 f rfl)

theorem lines_sound_iff {lines : List String} :
    Sound IsText IsProvider (readAll (lineReading pl p) lines) ↔
      ∀ line ∈ upTo (ends pl) lines, LineFits pl line :=
  sound_upTo_iff line_goes line_fine_iff lines

/-- A line that goes on leaves no last chunk. -/
theorem line_change {line : String} (here : ends pl line = false) (final : Value) :
    (lineReading pl p line).change final = final := by
  rcases @line_cases pl p line with ⟨-, -, reading⟩ | ⟨off, -⟩ | ⟨off, -⟩
  · rw [reading]; rfl
  · cases here.symm.trans off
  · cases here.symm.trans off

theorem changes_final : ∀ {lines : List String} {final : Value},
    (∀ line ∈ lines, ends pl line = false) → changes (lineReading pl p) lines final = final
  | [], _, _ => rfl
  | line :: lines, final, all => by
      have rest := @changes_final lines final fun l mem => all l (List.mem_cons_of_mem _ mem)
      rw [changes, List.foldl_cons, line_change (all line List.mem_cons_self)]
      exact rest

/-- **How the lines end**: all of them go on, or one raises, or one has the last chunk. -/
theorem run_cases (lines : List String) :
    ((∀ line ∈ lines, ends pl line = false) ∧ ∃ change, change (.obj []) = .obj [] ∧
      (readAll (lineReading pl p) lines).2 = .ok (change, false)) ∨
    ((¬∃ chunk, Final pl lines chunk) ∧ ∃ e, (readAll (lineReading pl p) lines).2 = .error e) ∨
    ∃ change chunk, Final pl lines chunk ∧ change (.obj []) = chunk ∧
      (readAll (lineReading pl p) lines).2 = .ok (change, true) := by
  cases found : lines.find? (ends pl) with
  | none =>
      have whole : ∀ line ∈ lines, ends pl line = false := fun line mem =>
        Bool.eq_false_iff.mpr (List.find?_eq_none.mp found line mem)
      exact .inl ⟨whole, _, changes_final whole, readAll_open line_goes whole⟩
  | some line =>
      refine .inr ?_
      rcases @line_cases pl p line with ⟨on, -⟩ | ⟨-, other, -, e, raises⟩ |
        ⟨-, chunk, carries, last, stops⟩
      · cases on.symm.trans (List.find?_some found)
      · refine .inl ⟨?_, e, readAll_raised line_goes found raises⟩
        rintro ⟨chunk, line', found', carries, last⟩
        cases found.symm.trans found'
        exact other chunk carries last
      · obtain ⟨passed, -, ended⟩ := readAll_stopped line_goes found stops
        exact .inr ⟨_, chunk, ⟨line, found, carries, last⟩, rfl, ended⟩

/-- What is made of texts and a last chunk is an end of the stream just when its usage fits. -/
theorem finish_last_iff {produced : List Value} {messages : List ChatMessage} {chunk : Value}
    (texts : AllTexts produced) (last : IsLast chunk) :
    Translated (fun _ => True) (finish p messages produced chunk) ↔ UsageFits chunk := by
  obtain ⟨members, rfl, -, -, done⟩ := last
  have some_member : truthy (.obj members) = true := by
    cases members with
    | nil => cases done
    | cons m members => simp [truthy]
  obtain ⟨whole, joins⟩ := joined_texts texts
  unfold finish
  rw [if_pos some_member]
  simp only [translated_unguarded, joins, getKey_obj, Except.ok.injEq, exists_eq_left']
  refine Iff.trans (?_ : _ ↔ ∃ u, usage (.obj members) (contents messages) (.str whole) = .ok u)
    usage_text
  constructor
  · rintro ⟨u, read, -⟩
    exact ⟨u, read⟩
  · rintro ⟨u, read⟩
    exact ⟨u, read, trivial⟩

theorem readStream_good_iff {messages : List ChatMessage} {r : StreamResponse} :
    GoodStream (readStream pl p messages r) ↔ StreamFits pl r := by
  unfold readStream StreamFits
  rw [afterLines_good_iff, lines_sound_iff]
  refine and_congr_right fun all => ?_
  have texts : AllTexts (readAll (lineReading pl p) r.lines).1 := (lines_sound_iff.mpr all).1
  rcases @run_cases pl p r.lines with ⟨whole, change, none, ended⟩ | ⟨none, e, raised⟩ |
    ⟨change, chunk, final, left, ended⟩
  · refine iff_of_true ?_ ?_
    · rw [ended]
      rintro change' stopped same -
      cases same
      rw [none]
      exact trivial
    · rintro chunk ⟨line, found, -⟩
      exact absurd (List.find?_some found) (by simp [whole line (List.mem_of_find?_eq_some found)])
  · rw [raised]
    exact iff_of_true nofun fun chunk final => absurd ⟨chunk, final⟩ none
  · rw [ended]
    have only : ∀ chunk', Final pl r.lines chunk' → chunk' = chunk := by
      rintro chunk' ⟨line', found', carries', -⟩
      obtain ⟨line, found, carries, -⟩ := final
      cases found.symm.trans found'
      cases carries.symm.trans carries'
      rfl
    have last : IsLast chunk := by
      obtain ⟨-, -, -, last⟩ := final
      exact last
    rw [← left] at last only final
    constructor
    · intro made chunk' final'
      rw [only chunk' final', ← finish_last_iff texts last]
      exact made _ _ rfl (.inl rfl)
    · rintro fits change' stopped same -
      cases same
      exact (finish_last_iff texts last).mpr (fits _ final)

/-- **Which streams `stream_chat` translates.** -/
theorem stream_translated_iff {server : Peer} {model : String} {messages : List ChatMessage}
    {params : ChatParams} : GoodStream (streamChat pl p server model messages params) ↔
      OpenedFits (StreamFits pl)
        (server.stream "/api/chat" (chatPayload p model messages params true)) :=
  openStream_good_iff fun _ => readStream_good_iff

end

/-! ## Embeddings -/

/-- The rows of an answer. -/
def rowsOf (data : Value) : Except Fault (List Value) := do items (← item "embeddings" data)

/-- The answer has this vector at the place of the input. -/
def Belongs (pl : Platform) (data : Value) (i : Nat) (v : List Float64) : Prop :=
  ∃ rows row, rowsOf data = .ok rows ∧ rows[i]? = some row ∧ rowFloats pl .ok row = .ok v

/-- Where an answer has rows, no integer is beyond the floats; and where there are as many as
inputs, all of floats, the count of tokens is read. -/
def EmbedFits (pl : Platform) (inputs : List String) (members : List (String × Value)) : Prop :=
  ∀ rows, rowsOf (.obj members) = .ok rows → ¬Oversized pl .ok rows ∧
    (rows.length = inputs.length → (∀ row ∈ rows, RowReads pl .ok row) →
      memberOf "prompt_eval_count" members ≠ .null →
        IsInt (memberOf "prompt_eval_count" members))

section

variable {pl : Platform} {p : OllamaProvider}

theorem rowsOf_fault {data : Value} {f : Fault} (raised : rowsOf data = .error f) :
    isMisread f = true := by
  rcases bind_error_iff.mp raised with here | ⟨listed, -, here⟩
  · rcases item_fault here with rfl | rfl <;> rfl
  · exact items_fault here ▸ rfl

/-- The vectors are those of the rows, in their order. -/
theorem vectors_belong {inputs : List String} {data : Value} {rows : List Value}
    {vectors : List (List Float64)} (read : rowsOf data = .ok rows)
    (floats : vectorsOf pl .ok rows = .ok vectors) (count : vectors.length = inputs.length)
    (usage : Usage) : GoodEmbedding inputs (Belongs pl data) { vectors, usage } := by
  obtain ⟨lengths, each⟩ := mapM_ok_at floats
  refine ⟨count, fun i bound => ?_⟩
  have right : i < vectors.length := count ▸ bound
  have left : i < rows.length := lengths ▸ right
  exact ⟨vectors[i], List.getElem?_eq_getElem right, rows, rows[i], read,
    List.getElem?_eq_getElem left, each i left right⟩

/-- What is left of an answer whose rows have been read. -/
theorem counted_translated_iff {inputs : List String} {members : List (String × Value)}
    {good : EmbeddingResult → Prop} {vectors : List (List Float64)}
    (judged : ∀ usage, good { vectors, usage }) :
    Translated good (do
      let tokens ← unguarded (getKey "prompt_eval_count" (.obj members))
      let usage ← unguarded (embedUsage tokens inputs)
      return ({ vectors, usage } : EmbeddingResult)) ↔
      (memberOf "prompt_eval_count" members ≠ .null →
        IsInt (memberOf "prompt_eval_count" members)) := by
  simp only [translated_unguarded, getKey_obj, Except.ok.injEq, exists_eq_left']
  rw [← @embedUsage_ok _ inputs]
  exact ⟨fun ⟨usage, read, _⟩ => ⟨usage, read⟩, fun ⟨usage, read⟩ => ⟨usage, read, judged usage⟩⟩

theorem readEmbeddings_translated_iff {inputs : List String} {members : List (String × Value)} :
    Translated (GoodEmbedding inputs (Belongs pl (.obj members)))
      (readEmbeddings pl p inputs (.obj members)) ↔ EmbedFits pl inputs members := by
  have listed : (do vectorsOf pl .ok (← items (← item "embeddings" (.obj members)))) =
      (rowsOf (.obj members)).bind (vectorsOf pl .ok) := by
    unfold rowsOf
    cases item "embeddings" (.obj members) <;> rfl
  unfold readEmbeddings EmbedFits
  rw [translated_bind, translated_convert, listed]
  cases read : rowsOf (.obj members) with
  | error f =>
      have caught := rowsOf_fault read
      simpa [Except.bind] using caught
  | ok rows =>
      simp only [Except.ok.injEq, forall_eq', Except.bind]
      cases floats : vectorsOf pl .ok rows with
      | error f =>
          rcases vectorsOf_fault (fun failed => by cases failed) floats with ⟨rfl, large⟩ | caught
          · exact iff_of_false Bool.false_ne_true fun fits => fits.1 large
          · have other : f ≠ .overflow := by
              rintro rfl
              cases caught
            obtain ⟨small, unread⟩ := unread_fits floats other
            exact iff_of_true caught ⟨small, fun _ => unread⟩
      | ok vectors =>
          have lengths := (mapM_ok_at floats).1
          rw [and_iff_right (read_fits floats).1]
          by_cases count : vectors.length = inputs.length
          · have counted := @counted_translated_iff inputs members _ _
              (vectors_belong read floats count)
            have as_many : rows.length = inputs.length := lengths.symm.trans count
            dsimp only
            rw [if_neg fun differ : vectors.length ≠ inputs.length => differ count]
            exact counted.trans ⟨fun fits _ _ => fits, fun fits => fits as_many (read_fits floats).2⟩
          · dsimp only
            rw [if_pos (show vectors.length ≠ inputs.length from count)]
            exact iff_of_true trivial fun as_many => absurd (lengths.trans as_many) count

/-- **Which answers `embed` translates.** -/
theorem embed_translated_iff {server : Peer} {model : String} {inputs : List String}
    {inputType : String} :
    Translated (GoodEmbedding inputs fun i v => ∃ data,
        answerOf pl (server.post "/api/embed" (embedPayload p model inputs inputType)) =
          some data ∧ Belongs pl data i v)
      (embed pl p server model inputs inputType) ↔
        AnswerFits pl (EmbedFits pl inputs)
          (server.post "/api/embed" (embedPayload p model inputs inputType)) := by
  refine postJson_translated_iff fun members answer => ?_
  rw [answer]
  simpa using readEmbeddings_translated_iff

end

end OpsAssist.Ollama
