/-
# OpsAssist.Providers.OpenAICompat -- the adapter for OpenAI-compatible servers

`chat`, `stream_chat` and `embed` take a server's answers apart.  Each has a shape of answers it
is made for (`ChatFits`, `StreamFits`, `EmbedFits`): `chat_translated_iff`,
`stream_translated_iff` and `embed_translated_iff` say that it gives a well-formed result or an
error of the hierarchy for these and for no others.
-/
import OpsAssist.Providers.Anthropic
import OpsAssist.Providers.Wire

namespace OpsAssist.OpenAI

set_option autoImplicit false

open Theory Dynamic Wire
open Anthropic (ChatParams)

/-! ## The adapter -/

structure OpenAICompatibleProvider where
  name : String
  sendInputType : Bool := false

/-- `_usage` -/
def usage (raw : Value) (messages : List String) (completion : Value) : Except Fault Usage :=
  usageOr (if truthy raw then reportedUsage "prompt_tokens" "completion_tokens" raw else .ok none)
    messages completion

/-- `_chat_payload` -/
def chatPayload (model : String) (messages : List ChatMessage) (params : ChatParams)
    (stream : Bool) : Value :=
  .obj ([("model", .str model), ("messages", messageObjects messages),
      ("max_tokens", .num (.int params.maxTokens)), ("stream", .bool stream)] ++
    (match params.temperature with
      | some t => [("temperature", .num t)]
      | none => []) ++
    if stream then [("stream_options", .obj [("include_usage", .bool true)])] else [])

/-- `data["choices"][0]` and its message -/
def messageOf (data : Value) : Except Fault (Value × Value) := do
  let choice ← first (← item "choices" data)
  let message ← item "message" choice
  return (choice, message)

/-- What the loop over lines keeps. -/
structure StreamState where
  usageRaw : Value := .null
  finishReason : Value := .null

def ofChoice (choice : Value) : Except Fault (Value × Value) := do
  let text ← contentOf (← getKey "delta" choice)
  let reason ← getKey "finish_reason" choice
  return (text, reason)

/-- One choice of a chunk; its reason is read last, of what is known to be an object. -/
def choiceReading (choice : Value) : Reading Value Value Fault :=
  match ofChoice choice with
  | .error f => .raise [] f
  | .ok (text, reason) => .next (said text) fun before => orElse reason before

def ofChunk (chunk : Value) : Except Fault (Value × List Value) := do
  let used ← getKey "usage" chunk
  let choices ← items (orElse (← getKey "choices" chunk) (.arr []))
  return (used, choices)

def chunkReading (chunk : Value) : Reading Value StreamState Fault :=
  match ofChunk chunk with
  | .error f => .raise [] f
  | .ok (used, choices) =>
      match readAll choiceReading choices with
      | (out, .error f) => .raise out f
      | (out, .ok (change, _)) => .next out fun s =>
          { usageRaw := orElse used s.usageRaw, finishReason := change s.finishReason }

/-- `line[5:].strip()` of a line that begins with `data:` -/
def dataOf (line : String) : Option String :=
  if "data:".toList.isPrefixOf line.toList then
    some (String.ofList (Text.strip (line.toList.drop 5)))
  else none

section

variable (pl : Platform) (p : OpenAICompatibleProvider)

def lineReading (line : String) : Reading Value StreamState Escaped :=
  match dataOf line with
  | none => .next [] id
  | some data =>
      if data = "[DONE]" then .stop [] id
      else
        match convert (· = .decode) (responseError p.name "malformed stream chunk") .fault
            (pl.loads data) with
        | .error e => .raise [] e
        | .ok chunk => (chunkReading chunk).mapExc .fault

/-- What is left once an answer is a JSON object. -/
def readChat (messages : List ChatMessage) (data : Value) : Except Escaped ChatResult := do
  let (choice, content) ← convert isLookup (responseError p.name "malformed chat response") .fault
    (do
      let (choice, message) ← messageOf data
      let content ← getKey "content" message
      return (choice, orElse content (.str "")))
  let raw ← unguarded (getKey "usage" data)
  let usage ← unguarded (usage raw (contents messages) content)
  let finishReason ← unguarded (getKey "finish_reason" choice)
  return { content, usage, finishReason }

/-- `chat` -/
def chat (server : Peer) (model : String) (messages : List ChatMessage) (params : ChatParams) :
    Except Escaped ChatResult := do
  let data ← postJson pl p.name (·.retryAfter)
    (server.post "/chat/completions" (chatPayload model messages params false))
  readChat p messages data

/-- What is made of the texts and of the last usage and reason. -/
def finish (messages : List ChatMessage) (produced : List Value) (s : StreamState) :
    Except Escaped StreamEnd := do
  let completion ← unguarded (joined produced)
  let usage ← unguarded (usage s.usageRaw (contents messages) completion)
  return { usage, finishReason := s.finishReason }

/-- The lines of a stream that has been opened. -/
def readStream (messages : List ChatMessage) (r : StreamResponse) : Streamed :=
  afterLines p.name r.breaks (finish messages) {} (readAll (lineReading pl p) r.lines)

/-- `stream_chat` -/
def streamChat (server : Peer) (model : String) (messages : List ChatMessage)
    (params : ChatParams) : Streamed :=
  openStream pl p.name (·.retryAfter) (readStream pl p messages)
    (server.stream "/chat/completions" (chatPayload model messages params true))

/-- The rows of an answer, by their index. -/
def rowsInOrder (data : Value) : Except Fault (List Value) := do
  let rows ← items (← item "data" data)
  let keyed ← rows.mapM fun row => do return (← item "index" row, row)
  return (← sortByKey keyed).map Prod.snd

def embedPayload (model : String) (inputs : List String) (inputType : String) : Value :=
  .obj ([("model", .str model), ("input", .arr (inputs.map .str)),
      ("encoding_format", .str "float")] ++
    if p.sendInputType then [("input_type", .str inputType), ("truncate", .str "END")] else [])

def readEmbeddings (inputs : List String) (data : Value) : Except Escaped EmbeddingResult := do
  let vectors ← convert isMisread (responseError p.name "malformed embedding response") .fault
    (do vectorsOf pl (item "embedding") (← rowsInOrder data))
  if vectors.length ≠ inputs.length then
    throw (responseError p.name "embedding count mismatch")
  let raw ← unguarded (getKey "usage" data)
  let tokens ← unguarded (getKey "prompt_tokens" (orElse raw (.obj [])))
  let usage ← unguarded (embedUsage tokens inputs)
  return { vectors, usage }

/-- `embed` -/
def embed (server : Peer) (model : String) (inputs : List String) (inputType : String) :
    Except Escaped EmbeddingResult := do
  let data ← postJson pl p.name (·.retryAfter)
    (server.post "/embeddings" (embedPayload p model inputs inputType))
  readEmbeddings pl p inputs data

end

/-! ## Chat -/

/-- Usage is not there, or reported as it should be. -/
def UsageFits (raw : Value) : Prop :=
  truthy raw = true → Reports "prompt_tokens" "completion_tokens" raw

/-- Where an answer has a first choice with a message, this is an object whose content is a text
or nothing, and the usage fits. -/
def ChatFits (members : List (String × Value)) : Prop :=
  ∀ choice message, messageOf (.obj members) = .ok (choice, message) →
    (∃ ms, message = .obj ms ∧ TextOrNothing (memberOf "content" ms)) ∧
      UsageFits (memberOf "usage" members)

section

variable {pl : Platform} {p : OpenAICompatibleProvider}

theorem usage_text {raw : Value} {messages : List String} {s : String} :
    (∃ u, usage raw messages (.str s) = .ok u) ↔ UsageFits raw := by
  unfold usage UsageFits
  rw [usageOr_text]
  by_cases there : truthy raw = true
  · rw [if_pos there, ← reportedUsage_ok]
    simp [there]
  · simp [there]

theorem messageOf_fault {data : Value} {f : Fault} (raised : messageOf data = .error f) :
    isLookup f = true := by
  unfold messageOf at raised
  rcases bind_error_iff.mp raised with here | ⟨choices, -, raised⟩
  · rcases item_fault here with rfl | rfl <;> rfl
  · rcases bind_error_iff.mp raised with here | ⟨choice, -, raised⟩
    · rcases first_fault here with rfl | rfl | rfl <;> rfl
    · rcases bind_error_iff.mp raised with here | ⟨message, -, raised⟩
      · rcases item_fault here with rfl | rfl <;> rfl
      · cases raised

/-- A choice that has a message is an object. -/
theorem messageOf_choice {data choice message : Value}
    (ok : messageOf data = .ok (choice, message)) : ∃ members, choice = .obj members := by
  unfold messageOf at ok
  obtain ⟨choices, -, ok⟩ := bind_ok_iff.mp ok
  obtain ⟨c, -, ok⟩ := bind_ok_iff.mp ok
  obtain ⟨m, there, ok⟩ := bind_ok_iff.mp ok
  cases ok
  obtain ⟨members, rfl, -⟩ := item_ok.mp there
  exact ⟨members, rfl⟩

/-- What is left once the message has been read. -/
theorem finish_translated_iff {messages : List ChatMessage} {members cs : List (String × Value)}
    {content : Value} :
    Translated GoodChat (do
      let raw ← unguarded (getKey "usage" (.obj members))
      let usage ← unguarded (usage raw (contents messages) content)
      let finishReason ← unguarded (getKey "finish_reason" (.obj cs))
      return ({ content, usage, finishReason } : ChatResult)) ↔
      (∃ s, content = .str s) ∧ UsageFits (memberOf "usage" members) := by
  simp only [translated_unguarded, getKey_obj, Except.ok.injEq, exists_eq_left']
  constructor
  · rintro ⟨u, read, s, rfl⟩
    exact ⟨⟨s, rfl⟩, usage_text.mp ⟨u, read⟩⟩
  · rintro ⟨⟨s, rfl⟩, fits⟩
    obtain ⟨u, read⟩ := usage_text.mpr fits
    exact ⟨u, read, s, rfl⟩

theorem readChat_translated_iff {messages : List ChatMessage} {members : List (String × Value)} :
    Translated GoodChat (readChat p messages (.obj members)) ↔ ChatFits members := by
  unfold readChat ChatFits
  rw [translated_bind, translated_convert]
  cases found : messageOf (.obj members) with
  | error f =>
      have caught := messageOf_fault found
      simpa [bind, Except.bind] using caught
  | ok pair =>
      obtain ⟨choice, message⟩ := pair
      obtain ⟨cs, rfl⟩ := messageOf_choice found
      have one : (∀ c m, (.ok (.obj cs, message) : Except Fault (Value × Value)) = .ok (c, m) →
          (∃ ms, m = .obj ms ∧ TextOrNothing (memberOf "content" ms)) ∧
            UsageFits (memberOf "usage" members)) ↔
          (∃ ms, message = .obj ms ∧ TextOrNothing (memberOf "content" ms)) ∧
            UsageFits (memberOf "usage" members) :=
        ⟨fun all => all _ _ rfl, fun fits _ _ same => by cases same; exact fits⟩
      rw [one]
      cases message with
      | obj ms =>
          have read : (do
              let (choice, message) ← (.ok (.obj cs, .obj ms) : Except Fault (Value × Value))
              let content ← getKey "content" message
              return (choice, orElse content (.str ""))) =
              .ok (.obj cs, orElse (memberOf "content" ms) (.str "")) := rfl
          rw [read]
          exact finish_translated_iff.trans (by rw [orElse_text]; simp)
      | _ => simp [bind, Except.bind, getKey, isLookup]

/-- **Which answers `chat` translates.** -/
theorem chat_translated_iff {server : Peer} {model : String} {messages : List ChatMessage}
    {params : ChatParams} : Translated GoodChat (chat pl p server model messages params) ↔
      AnswerFits pl ChatFits
        (server.post "/chat/completions" (chatPayload model messages params false)) :=
  postJson_translated_iff fun _ _ => readChat_translated_iff

end

/-! ## Streams -/

/-- An object, whose delta is nothing or an object with a text or nothing as its content. -/
def ChoiceFits (choice : Value) : Prop :=
  ∃ members, choice = .obj members ∧ ContentFits (memberOf "delta" members)

/-- An object, whose choices are nothing or a list of fitting ones. -/
def ChunkFits (chunk : Value) : Prop :=
  ∃ members, chunk = .obj members ∧ (truthy (memberOf "choices" members) = true →
    ∃ choices, memberOf "choices" members = .arr choices ∧ ∀ c ∈ choices, ChoiceFits c)

section

variable (pl : Platform)

/-- The line ends the stream: it marks its end, or is no JSON. -/
def ends (line : String) : Bool :=
  match dataOf line with
  | none => false
  | some data =>
      data == "[DONE]" ||
        match pl.loads data with
        | .error f => f == .decode
        | .ok _ => false

/-- The chunk a line carries, unless it marks the end. -/
def chunkOf (line : String) : Option (Except Fault Value) :=
  (dataOf line).bind fun data => if data = "[DONE]" then none else some (pl.loads data)

/-- A line without data, or with a fitting chunk. -/
def LineFits (line : String) : Prop :=
  ∀ read, chunkOf pl line = some read → ∃ chunk, read = .ok chunk ∧ ChunkFits chunk

/-- The lines before the one that ends the stream. -/
def linesRead (lines : List String) : List String := lines.takeWhile fun l => !ends pl l

/-- The usage a chunk carries. -/
def usageOf : Value → Value
  | .obj members => memberOf "usage" members
  | _ => .null

def lineUsage (line : String) : Value :=
  match chunkOf pl line with
  | some (.ok chunk) => usageOf chunk
  | _ => .null

/-- The last usage that lines carry. -/
def lastUsage (lines : List String) : Value :=
  lines.foldl (fun before line => orElse (lineUsage pl line) before) .null

/-- The stream comes to its end: it is marked, or the connection is closed after the last line. -/
def Closes (r : StreamResponse) : Prop :=
  match r.lines.find? (ends pl) with
  | some line => dataOf line = some "[DONE]"
  | none => r.breaks = none

/-- The lines before the end fit, and so does their last usage, unless an error of the hierarchy
comes first. -/
def StreamFits (r : StreamResponse) : Prop :=
  (∀ line ∈ linesRead pl r.lines, LineFits pl line) ∧
    (Closes pl r → UsageFits (lastUsage pl (linesRead pl r.lines)))

end

section

variable {pl : Platform} {p : OpenAICompatibleProvider}

theorem ofChoice_obj {members : List (String × Value)} :
    ofChoice (.obj members) =
      if readable (memberOf "delta" members) then
        .ok (contentIn (memberOf "delta" members), memberOf "finish_reason" members)
      else .error .attribute := by
  unfold ofChoice
  simp only [getKey_obj, bind, Except.bind, contentOf_eq]
  by_cases reads : readable (memberOf "delta" members) = true
  · rw [if_pos reads, if_pos reads]
    rfl
  · rw [if_neg reads, if_neg reads]

theorem ofChoice_other {choice : Value} (other : ∀ members, choice ≠ .obj members) :
    ofChoice choice = .error .attribute := by
  cases choice with
  | obj members => exact absurd rfl (other members)
  | _ => rfl

theorem choice_passes {choice : Value} (fits : ChoiceFits choice) :
    (choiceReading choice).goesOn = true := by
  obtain ⟨members, rfl, delta⟩ := fits
  rw [choiceReading, ofChoice_obj, if_pos (contentFits_iff.mp delta).1]
  rfl

/-- A choice hands on texts and raises nothing just when it fits. -/
theorem choice_fine_iff {choice : Value} :
    (choiceReading choice).Fine IsText (fun _ => False) ↔ ChoiceFits choice := by
  unfold choiceReading ChoiceFits
  cases choice with
  | obj members =>
      simp only [Json.obj.injEq, exists_eq_left', contentFits_iff, ofChoice_obj]
      by_cases reads : readable (memberOf "delta" members) = true
      · rw [if_pos reads, and_iff_right reads, ← allTexts_said]
        exact ⟨fun fine => fine.1, fun all => ⟨all, nofun⟩⟩
      · rw [if_neg reads]
        exact iff_of_false (fun fine => fine.2 [] _ rfl) fun both => reads both.1
  | _ => exact iff_of_false (fun fine => fine.2 [] _ rfl) (by simp)

/-- So do choices one after another. -/
theorem choices_sound_iff {choices : List Value} :
    Sound IsText (fun _ => False) (readAll choiceReading choices) ↔
      ∀ c ∈ choices, ChoiceFits c := by
  have run := readAll_sound_iff (fun _ => false) ChoiceFits nofun
    (fun _ _ => choice_fine_iff) (fun _ _ => choice_passes) choices
  have whole : choices.takeWhile (fun _ => !false) = choices :=
    List.takeWhile_eq_self_iff.mpr fun _ _ => rfl
  rwa [whole] at run

/-- What is read of a chunk that fits. -/
theorem chunk_passes {chunk : Value} (fits : ChunkFits chunk) :
    (chunkReading chunk).goesOn = true ∧ ∀ s : StreamState,
      ((chunkReading chunk).change s).usageRaw = orElse (usageOf chunk) s.usageRaw := by
  obtain ⟨members, rfl, choices⟩ := fits
  have listed : ∃ cs, items (orElse (memberOf "choices" members) (.arr [])) = .ok cs ∧
      ∀ c ∈ cs, ChoiceFits c := by
    by_cases there : truthy (memberOf "choices" members) = true
    · obtain ⟨cs, shape, all⟩ := choices there
      exact ⟨cs, by rw [orElse, if_pos there, shape]; rfl, all⟩
    · exact ⟨[], by rw [orElse, if_neg there]; rfl, nofun⟩
  obtain ⟨cs, read, all⟩ := listed
  have whole : ofChunk (.obj members) = .ok (memberOf "usage" members, cs) := by
    simp only [ofChunk, getKey_obj, bind, Except.bind, read]
    rfl
  have passed : ∀ c ∈ cs, (choiceReading c).goesOn = true := fun c mem => choice_passes (all c mem)
  simp only [chunkReading, whole, readAll_passed passed]
  exact ⟨rfl, fun _ => rfl⟩

/-- What is iterated over gives objects only where it is a list. -/
theorem items_fit {choices : Value} {cs : List Value} (there : truthy choices = true)
    (read : items choices = .ok cs) (all : ∀ c ∈ cs, ChoiceFits c) : choices = .arr cs := by
  have no_text : ∀ s, ¬ChoiceFits (.str s) := by
    rintro s ⟨members, shape, -⟩
    cases shape
  cases choices with
  | arr => cases read; rfl
  | obj members =>
      cases read
      cases members with
      | nil => simp [truthy] at there
      | cons m members => exact absurd (all _ List.mem_cons_self) (no_text _)
  | str s =>
      cases read
      cases spelt : s.toList with
      | nil => simp [truthy, String.toList_eq_nil_iff.mp spelt] at there
      | cons c rest => exact absurd (all _ (by rw [spelt]; exact List.mem_cons_self)) (no_text _)
  | _ => cases read

/-- A chunk hands on texts and raises nothing just when it fits. -/
theorem chunk_fine_iff {chunk : Value} :
    (chunkReading chunk).Fine IsText (fun _ => False) ↔ ChunkFits chunk := by
  cases read : ofChunk chunk with
  | error f =>
      refine iff_of_false (fun fine => fine.2 [] f (by rw [chunkReading, read])) fun fits => ?_
      have goes := (chunk_passes fits).1
      simp [chunkReading, read, Reading.goesOn] at goes
  | ok pair =>
      obtain ⟨used, choices⟩ := pair
      have each : (chunkReading chunk).Fine IsText (fun _ => False) ↔
          ∀ c ∈ choices, ChoiceFits c := by
        rw [← choices_sound_iff, chunkReading, read]
        cases run : readAll choiceReading choices with
        | mk out result =>
            cases result <;> simp [Sound, Reading.Fine, Reading.out, run]
      rw [each]
      unfold ofChunk at read
      obtain ⟨u, there, read⟩ := bind_ok_iff.mp read
      obtain ⟨c, here, read⟩ := bind_ok_iff.mp read
      obtain ⟨cs, listed, read⟩ := bind_ok_iff.mp read
      cases read
      obtain ⟨members, rfl, rfl⟩ := getKey_ok.mp there
      cases here
      constructor
      · intro all
        refine ⟨members, rfl, fun some_choice => ⟨choices, ?_, all⟩⟩
        rw [orElse, if_pos some_choice] at listed
        exact items_fit some_choice listed all
      · rintro ⟨members', same, fits⟩
        cases same
        by_cases some_choice : truthy (memberOf "choices" members) = true
        · obtain ⟨cs, shape, all⟩ := fits some_choice
          rw [orElse, if_pos some_choice] at listed
          have same : cs = choices := by
            have shape' : (members.lookup "choices").getD .null = .arr cs := shape
            rw [shape'] at listed
            cases listed
            rfl
          exact same ▸ all
        · rw [orElse, if_neg some_choice] at listed
          cases listed
          exact fun _ mem => absurd mem List.not_mem_nil

/-! ### Lines -/

theorem lineReading_done {line : String} (marked : dataOf line = some "[DONE]") :
    lineReading pl p line = .stop [] id := by
  rw [lineReading, marked]
  exact if_pos rfl

theorem lineReading_data {line data : String} (carries : dataOf line = some data)
    (goes : data ≠ "[DONE]") : lineReading pl p line =
      match convert (· = .decode) (responseError p.name "malformed stream chunk") .fault
          (pl.loads data) with
      | .error e => .raise [] e
      | .ok chunk => (chunkReading chunk).mapExc .fault := by
  rw [lineReading, carries]
  exact if_neg goes

/-- A line that ends the stream marks its end, or is no JSON. -/
theorem ends_cases {line : String} (here : ends pl line = true) :
    (dataOf line = some "[DONE]" ∧ lineReading pl p line = .stop [] id) ∨
      dataOf line ≠ some "[DONE]" ∧ lineReading pl p line =
        .raise [] (responseError p.name "malformed stream chunk") := by
  unfold ends at here
  cases carries : dataOf line with
  | none => simp [carries] at here
  | some data =>
      by_cases done : data = "[DONE]"
      · exact .inl ⟨by rw [done], lineReading_done (by rw [carries, done])⟩
      · refine .inr ⟨by simpa using done, ?_⟩
        cases read : pl.loads data with
        | ok chunk => simp [carries, done, read] at here
        | error f =>
            have kind : f = .decode := by simpa [carries, done, read] using here
            rw [lineReading_data carries done, read, kind]
            rfl

theorem line_ended {line : String} (here : ends pl line = true) :
    (lineReading pl p line).goesOn = false ∧
      (lineReading pl p line).Fine IsText IsProvider := by
  rcases ends_cases (p := p) here with ⟨-, reading⟩ | ⟨-, reading⟩ <;> rw [reading]
  · exact ⟨rfl, nofun, nofun⟩
  · exact ⟨rfl, nofun, fun out e same => by cases same; trivial⟩

/-- What a line that does not end the stream is read as. -/
theorem line_cases {line : String} (here : ends pl line = false) :
    (chunkOf pl line = none ∧ lineReading pl p line = .next [] id) ∨
      (∃ f, chunkOf pl line = some (.error f) ∧ lineReading pl p line = .raise [] (.fault f)) ∨
        ∃ chunk, chunkOf pl line = some (.ok chunk) ∧
          lineReading pl p line = (chunkReading chunk).mapExc .fault := by
  unfold ends at here
  unfold chunkOf
  cases carries : dataOf line with
  | none => exact .inl ⟨rfl, by rw [lineReading, carries]⟩
  | some data =>
      have goes : data ≠ "[DONE]" := fun done => by simp [carries, done] at here
      refine .inr ?_
      rw [lineReading_data carries goes, Option.bind_some, if_neg goes]
      cases read : pl.loads data with
      | ok chunk => exact .inr ⟨chunk, rfl, rfl⟩
      | error f =>
          have kind : f ≠ .decode := by simpa [carries, goes, read] using here
          exact .inl ⟨f, rfl, by simp [convert, kind]⟩

theorem line_fine_iff {line : String} (here : ends pl line = false) :
    (lineReading pl p line).Fine IsText IsProvider ↔ LineFits pl line := by
  unfold LineFits
  rcases line_cases (p := p) here with ⟨carries, reading⟩ | ⟨f, carries, reading⟩ |
    ⟨chunk, carries, reading⟩
  · rw [carries, reading]
    exact iff_of_true ⟨nofun, nofun⟩ nofun
  · rw [carries, reading]
    refine iff_of_false (fun fine => fine.2 _ _ rfl) fun fits => ?_
    obtain ⟨chunk, same, -⟩ := fits _ rfl
    cases same
  · rw [carries, reading, fine_mapExc]
    refine chunk_fine_iff.trans ⟨fun fits read same => ?_, fun fits => ?_⟩
    · cases same
      exact ⟨chunk, rfl, fits⟩
    · obtain ⟨chunk', same, fits⟩ := fits _ rfl
      cases same
      exact fits

theorem line_passes {line : String} (here : ends pl line = false) (fits : LineFits pl line) :
    (lineReading pl p line).goesOn = true ∧ ∀ s : StreamState,
      ((lineReading pl p line).change s).usageRaw = orElse (lineUsage pl line) s.usageRaw := by
  unfold lineUsage
  rcases line_cases (p := p) here with ⟨carries, reading⟩ | ⟨f, carries, reading⟩ |
    ⟨chunk, carries, reading⟩
  · rw [carries, reading]
    exact ⟨rfl, fun _ => rfl⟩
  · obtain ⟨chunk, same, -⟩ := fits _ carries
    cases same
  · obtain ⟨chunk', same, shape⟩ := fits _ carries
    cases same
    rw [carries, reading, Reading.mapExc_goesOn, Reading.mapExc_change]
    exact chunk_passes shape

theorem lines_sound_iff {lines : List String} :
    Sound IsText IsProvider (readAll (lineReading pl p) lines) ↔
      ∀ line ∈ linesRead pl lines, LineFits pl line :=
  readAll_sound_iff (ends pl) (LineFits pl) (fun _ => line_ended) (fun _ => line_fine_iff)
    (fun _ here fits => (line_passes here fits).1) lines

/-- The usage that is kept is the last one. -/
theorem changes_usage : ∀ {lines : List String} {s : StreamState},
    (∀ line ∈ lines, ends pl line = false ∧ LineFits pl line) →
      (changes (lineReading pl p) lines s).usageRaw =
        lines.foldl (fun before line => orElse (lineUsage pl line) before) s.usageRaw
  | [], _, _ => rfl
  | line :: lines, s, all => by
      obtain ⟨here, fits⟩ := all line List.mem_cons_self
      rw [List.foldl_cons, ← (line_passes here fits).2 s]
      exact changes_usage fun l mem => all l (List.mem_cons_of_mem _ mem)

/-! ### Whole streams -/

/-- Where the lines before the end fit, the run is closed, broken off by the connection later, or
ended by a line that is no JSON. -/
theorem run_cases {lines : List String} (all : ∀ line ∈ linesRead pl lines, LineFits pl line) :
    ∃ change : StreamState → StreamState,
      (change {}).usageRaw = lastUsage pl (linesRead pl lines) ∧
        match lines.find? (ends pl) with
        | none => (readAll (lineReading pl p) lines).2 = .ok (change, false)
        | some line =>
            dataOf line = some "[DONE]" ∧
                (readAll (lineReading pl p) lines).2 = .ok (change, true) ∨
              dataOf line ≠ some "[DONE]" ∧ (readAll (lineReading pl p) lines).2 =
                .error (responseError p.name "malformed stream chunk") := by
  rcases split_first (ends pl) lines with whole | ⟨front, line, back, rfl, before, here⟩
  · have read : linesRead pl lines = lines :=
      List.takeWhile_eq_self_iff.mpr fun l mem => by simp [whole l mem]
    have fits : ∀ l ∈ lines, ends pl l = false ∧ LineFits pl l :=
      fun l mem => ⟨whole l mem, all l (read.symm ▸ mem)⟩
    rw [List.find?_eq_none.mpr fun l mem => by simp [whole l mem], read]
    refine ⟨changes (lineReading pl p) lines, changes_usage fits, ?_⟩
    rw [readAll_passed fun l mem => (line_passes (fits l mem).1 (fits l mem).2).1]
  · have read : linesRead pl (front ++ line :: back) = front := by
      rw [linesRead, List.takeWhile_append_of_pos fun l mem => by simp [before l mem]]
      simp [here]
    have fits : ∀ l ∈ front, ends pl l = false ∧ LineFits pl l :=
      fun l mem => ⟨before l mem, all l (read.symm ▸ mem)⟩
    have found : (front ++ line :: back).find? (ends pl) = some line :=
      List.find?_eq_some_iff_append.mpr
        ⟨here, front, back, rfl, fun l mem => by simp [before l mem]⟩
    rw [found, read, readAll_ended (fun l mem => (line_passes (fits l mem).1 (fits l mem).2).1)
      (line_ended here).1]
    refine ⟨changes (lineReading pl p) front, changes_usage fits, ?_⟩
    have same : ∀ s, changes (lineReading pl p) (front ++ [line]) s =
        (lineReading pl p line).change (changes (lineReading pl p) front s) := by
      intro s
      simp [changes]
    rcases ends_cases (p := p) here with ⟨marked, reading⟩ | ⟨unmarked, reading⟩
    · refine .inl ⟨marked, ?_⟩
      have kept : changes (lineReading pl p) (front ++ [line]) =
          changes (lineReading pl p) front := by
        funext s
        rw [same, reading]
        rfl
      rw [reading, kept]
    · exact .inr ⟨unmarked, by rw [reading]⟩

/-- What is made of texts is an end of the stream just when the last usage fits. -/
theorem finish_texts_iff {produced : List Value} {messages : List ChatMessage} {s : StreamState}
    (texts : AllTexts produced) :
    Translated (fun _ => True) (finish messages produced s) ↔ UsageFits s.usageRaw := by
  obtain ⟨whole, joins⟩ := joined_texts texts
  unfold finish
  simp only [translated_unguarded, joins, Except.ok.injEq, exists_eq_left']
  exact Iff.trans ⟨fun ⟨u, read, _⟩ => ⟨u, read⟩, fun ⟨u, read⟩ => ⟨u, read, trivial⟩⟩ usage_text

theorem readStream_good_iff {messages : List ChatMessage} {r : StreamResponse} :
    GoodStream (readStream pl p messages r) ↔ StreamFits pl r := by
  unfold readStream StreamFits Closes
  rw [afterLines_good_iff, lines_sound_iff]
  refine and_congr_right fun all => ?_
  have texts : AllTexts (readAll (lineReading pl p) r.lines).1 := (lines_sound_iff.mpr all).1
  obtain ⟨change, last, outcome⟩ := run_cases (p := p) all
  rw [← last]
  cases found : r.lines.find? (ends pl) with
  | none =>
      rw [found] at outcome
      simp only [outcome, Except.ok.injEq, Prod.mk.injEq, and_imp]
      rw [← finish_texts_iff texts]
      exact ⟨fun whole closes => whole _ _ rfl rfl (.inr closes), fun whole _ _ same stops closed => by
        subst same stops
        exact whole (closed.resolve_left Bool.false_ne_true)⟩
  | some line =>
      rw [found] at outcome
      rcases outcome with ⟨marked, ended⟩ | ⟨unmarked, raised⟩
      · simp only [ended, Except.ok.injEq, Prod.mk.injEq, and_imp]
        rw [← finish_texts_iff texts]
        exact ⟨fun whole _ => whole _ _ rfl rfl (.inl rfl), fun whole _ _ same _ _ => by
          subst same
          exact whole marked⟩
      · rw [raised]
        exact iff_of_true nofun fun marked => absurd marked unmarked

/-- **Which streams `stream_chat` translates.** -/
theorem stream_translated_iff {server : Peer} {model : String} {messages : List ChatMessage}
    {params : ChatParams} : GoodStream (streamChat pl p server model messages params) ↔
      OpenedFits (StreamFits pl)
        (server.stream "/chat/completions" (chatPayload model messages params true)) :=
  openStream_good_iff fun _ => readStream_good_iff

end

/-! ## Embeddings -/

/-- The row says it is the one of the input at `i`. -/
def IndexIs (i : Nat) (row : Value) : Prop :=
  ∃ key, item "index" row = .ok key ∧ magnitude key = some (.finite (unitsOf i))

/-- The rows of an answer, as they come. -/
def rowsOf (data : Value) : Except Fault (List Value) := do items (← item "data" data)

/-- The answer has this vector for the input at `i`. -/
def Belongs (pl : Platform) (data : Value) (i : Nat) (v : List Float64) : Prop :=
  ∃ rows row, rowsOf data = .ok rows ∧ row ∈ rows ∧ IndexIs i row ∧
    rowFloats pl (item "embedding") row = .ok v

/-- The usage of an embedding answer is not there, or a count that is read. -/
def TokensFit (members : List (String × Value)) : Prop :=
  truthy (memberOf "usage" members) = true → ∃ us, memberOf "usage" members = .obj us ∧
    (memberOf "prompt_tokens" us ≠ .null → IsInt (memberOf "prompt_tokens" us))

/-- Where an answer has rows in an order, no integer is beyond the floats; and where there are as
many as inputs, all of floats, each input has its row, and the usage fits. -/
def EmbedFits (pl : Platform) (inputs : List String) (members : List (String × Value)) : Prop :=
  ∀ rows, rowsInOrder (.obj members) = .ok rows → ¬Oversized pl (item "embedding") rows ∧
    (rows.length = inputs.length → (∀ row ∈ rows, RowReads pl (item "embedding") row) →
      (∀ i < inputs.length, ∃ row ∈ rows, IndexIs i row) ∧ TokensFit members)

section

variable {pl : Platform} {p : OpenAICompatibleProvider}

theorem rowsInOrder_fault {data : Value} {f : Fault} (raised : rowsInOrder data = .error f) :
    isMisread f = true := by
  unfold rowsInOrder at raised
  rcases bind_error_iff.mp raised with here | ⟨listed, -, raised⟩
  · rcases item_fault here with rfl | rfl <;> rfl
  rcases bind_error_iff.mp raised with here | ⟨rows, -, raised⟩
  · exact items_fault here ▸ rfl
  rcases bind_error_iff.mp raised with here | ⟨keyed, -, raised⟩
  · obtain ⟨_, row, _, -, -, failed⟩ := mapM_error_iff.mp here
    rcases bind_error_iff.mp failed with missing | ⟨key, -, failed⟩
    · rcases item_fault missing with rfl | rfl <;> rfl
    · cases failed
  rcases bind_error_iff.mp raised with here | ⟨sorted, -, raised⟩
  · exact sortByKey_fault here ▸ rfl
  · cases raised

/-- Rows with their indices. -/
theorem keyed_ok {rows : List Value} {keyed : List (Value × Value)}
    (each : rows.mapM (fun row => do return (← item "index" row, row)) = .ok keyed) :
    keyed.map Prod.snd = rows ∧ ∀ k ∈ keyed, item "index" k.2 = .ok k.1 := by
  have pairs := mapM_ok_iff.mp each
  clear each
  induction pairs with
  | nil => exact ⟨rfl, nofun⟩
  | cons here rest ih =>
      obtain ⟨key, found, made⟩ := bind_ok_iff.mp here
      cases made
      exact ⟨by rw [List.map_cons, ih.1], List.forall_mem_cons.mpr ⟨found, ih.2⟩⟩

/-- The rows in order are the rows, each with its index, sorted. -/
theorem rowsInOrder_ok {data : Value} {rows : List Value} (read : rowsInOrder data = .ok rows) :
    ∃ listed keyed sorted, rowsOf data = .ok listed ∧ keyed.map Prod.snd = listed ∧
      (∀ k ∈ keyed, item "index" k.2 = .ok k.1) ∧ sortByKey keyed = .ok sorted ∧
      rows = sorted.map Prod.snd := by
  unfold rowsInOrder at read
  obtain ⟨raw, data_, read⟩ := bind_ok_iff.mp read
  obtain ⟨listed, rows_, read⟩ := bind_ok_iff.mp read
  obtain ⟨keyed, each, read⟩ := bind_ok_iff.mp read
  obtain ⟨sorted, ordered, read⟩ := bind_ok_iff.mp read
  cases read
  obtain ⟨rows, indices⟩ := keyed_ok each
  exact ⟨listed, keyed, sorted, bind_ok_iff.mpr ⟨raw, data_, rows_⟩, rows, indices, ordered, rfl⟩

/-- Where every input has a row, the rows come in the order of the inputs. -/
theorem rows_by_index {data : Value} {rows : List Value} (read : rowsInOrder data = .ok rows)
    (all : ∀ i < rows.length, ∃ row ∈ rows, IndexIs i row) {i : ℕ} (bound : i < rows.length) :
    IndexIs i rows[i] := by
  obtain ⟨listed, keyed, sorted, -, rfl, indices, ordered, rfl⟩ := rowsInOrder_ok read
  have perm := sortBy_perm ordered
  have keys : ∀ k ∈ sorted, item "index" k.2 = .ok k.1 := fun k mem => indices k (perm.subset mem)
  -- an element for each index, so there is no other
  have each : ∀ i < sorted.length, ∃ k ∈ sorted, magnitude k.1 = some (.finite (unitsOf i)) := by
    intro i bound
    obtain ⟨row, mem, key, there, here⟩ := all i (by simpa using bound)
    obtain ⟨k, inside, rfl⟩ := List.mem_map.mp mem
    cases (keys k inside).symm.trans there
    exact ⟨k, inside, here⟩
  have mono : StrictMono fun i : ℕ => unitsOf i := fun _ _ less =>
    unitsOf_lt (Int.ofNat_lt.mpr less)
  have distinct : Function.Injective fun i : ℕ => some (Magnitude.finite (unitsOf i)) := by
    intro i j same
    simp only [Option.some.injEq, Magnitude.finite.injEq] at same
    exact mono.injective same
  have only : (sorted.map fun k => magnitude k.1).Perm
      ((List.range sorted.length).map fun i : ℕ => some (.finite (unitsOf i))) :=
    perm_range_of_mem distinct (by simp) fun i bound => List.mem_map.mpr (each i bound)
  let units : Value × Value → Int := fun k => (magnitude k.1).elim 0 fun m =>
    @Magnitude.casesOn (fun _ => Int) m (fun u => u) (fun _ => 0) 0
  have finite : ∀ k ∈ sorted, magnitude k.1 = some (.finite (units k)) := by
    intro k mem
    obtain ⟨j, -, here⟩ := List.mem_map.mp (only.subset (List.mem_map_of_mem mem))
    simp only [units, ← here, Option.elim_some]
  obtain ⟨sorted', ordered', ascending⟩ :=
    sortByKey_sorted fun k mem => finite k (perm.symm.subset mem)
  cases ordered.symm.trans ordered'
  have bound' : i < sorted.length := by simpa using bound
  have place := sorted_at mono (fun i bound => by
    obtain ⟨k, mem, here⟩ := each i bound
    refine ⟨k, mem, ?_⟩
    simp only [units, here, Option.elim_some]) ascending bound'
  have mem : sorted[i] ∈ sorted := List.getElem_mem bound'
  refine ⟨sorted[i].1, ?_, ?_⟩
  · rw [List.getElem_map]
    exact keys _ mem
  · rw [finite _ mem, place]

theorem usage_tokens_iff {members : List (String × Value)} :
    (∃ tokens, getKey "prompt_tokens" (orElse (memberOf "usage" members) (.obj [])) = .ok tokens ∧
      (tokens ≠ .null → IsInt tokens)) ↔ TokensFit members := by
  unfold TokensFit orElse
  by_cases there : truthy (memberOf "usage" members) = true
  · rw [if_pos there]
    simp only [getKey_ok, there, forall_const]
    constructor
    · rintro ⟨_, ⟨us, shape, rfl⟩, reads⟩
      exact ⟨us, shape, reads⟩
    · rintro ⟨us, shape, reads⟩
      exact ⟨_, ⟨us, shape, rfl⟩, reads⟩
  · rw [if_neg there]
    exact iff_of_true ⟨.null, rfl, fun told => absurd rfl told⟩ fun told => absurd told there

/-- What is left of an answer whose rows have been read. -/
theorem counted_translated_iff {inputs : List String} {members : List (String × Value)}
    {good : EmbeddingResult → Prop} {belongs : Prop} {vectors : List (List Float64)}
    (judged : ∀ usage, good { vectors, usage } ↔ belongs) :
    Translated good (do
      let raw ← unguarded (getKey "usage" (.obj members))
      let tokens ← unguarded (getKey "prompt_tokens" (orElse raw (.obj [])))
      let usage ← unguarded (embedUsage tokens inputs)
      return ({ vectors, usage } : EmbeddingResult)) ↔ belongs ∧ TokensFit members := by
  simp only [translated_unguarded, getKey_obj, Except.ok.injEq, exists_eq_left']
  rw [← usage_tokens_iff]
  constructor
  · rintro ⟨tokens, there, usage, read, fits⟩
    exact ⟨(judged usage).mp fits, tokens, there, embedUsage_ok.mp ⟨usage, read⟩⟩
  · rintro ⟨fits, tokens, there, reads⟩
    obtain ⟨usage, read⟩ := embedUsage_ok.mpr reads
    exact ⟨tokens, there, usage, read, (judged usage).mpr fits⟩

/-- The vectors belong to the inputs just when every input has its row. -/
theorem vectors_belong_iff {inputs : List String} {data : Value} {rows : List Value}
    {vectors : List (List Float64)} (read : rowsInOrder data = .ok rows)
    (floats : vectorsOf pl (item "embedding") rows = .ok vectors)
    (count : vectors.length = inputs.length) (usage : Usage) :
    GoodEmbedding inputs (Belongs pl data) { vectors, usage } ↔
      ∀ i < inputs.length, ∃ row ∈ rows, IndexIs i row := by
  obtain ⟨lengths, floats_at⟩ := mapM_ok_at floats
  obtain ⟨listed, keyed, sorted, from_, rfl, -, ordered, shape⟩ := rowsInOrder_ok read
  have perm : rows.Perm (keyed.map Prod.snd) := shape ▸ (sortBy_perm ordered).map _
  constructor
  · rintro ⟨-, each⟩ i bound
    obtain ⟨v, -, rows', row, there, mem, here, -⟩ := each i bound
    cases from_.symm.trans there
    exact ⟨row, perm.symm.subset mem, here⟩
  · intro all
    refine ⟨count, fun i bound => ?_⟩
    have right : i < vectors.length := count ▸ bound
    have left : i < rows.length := lengths ▸ right
    refine ⟨vectors[i], List.getElem?_eq_getElem right, _, rows[i], from_,
      perm.subset (List.getElem_mem left), ?_, floats_at i left right⟩
    exact rows_by_index read (by rw [← lengths, count]; exact all) left

theorem readEmbeddings_translated_iff {inputs : List String} {members : List (String × Value)} :
    Translated (GoodEmbedding inputs (Belongs pl (.obj members)))
      (readEmbeddings pl p inputs (.obj members)) ↔ EmbedFits pl inputs members := by
  have listed : (do vectorsOf pl (item "embedding") (← rowsInOrder (.obj members))) =
      (rowsInOrder (.obj members)).bind (vectorsOf pl (item "embedding")) := rfl
  unfold readEmbeddings EmbedFits
  rw [translated_bind, translated_convert, listed]
  cases read : rowsInOrder (.obj members) with
  | error f =>
      have caught := rowsInOrder_fault read
      simpa [Except.bind] using caught
  | ok rows =>
      simp only [Except.ok.injEq, forall_eq', Except.bind]
      cases floats : vectorsOf pl (item "embedding") rows with
      | error f =>
          rcases vectorsOf_fault item_fault floats with ⟨rfl, large⟩ | caught
          · exact iff_of_false Bool.false_ne_true fun fits => fits.1 large
          · have other : f ≠ .overflow := by
              rintro rfl
              cases caught
            obtain ⟨small, unread⟩ := unread_fits floats other
            exact iff_of_true caught ⟨small, fun _ => unread⟩
      | ok vectors =>
          obtain ⟨small, reads⟩ := read_fits floats
          have lengths := (mapM_ok_at floats).1
          rw [and_iff_right small]
          by_cases count : vectors.length = inputs.length
          · have counted := @counted_translated_iff inputs members _ _ _
              (vectors_belong_iff read floats count)
            have as_many : rows.length = inputs.length := lengths.symm.trans count
            dsimp only
            rw [if_neg fun differ : vectors.length ≠ inputs.length => differ count]
            exact counted.trans ⟨fun fits _ _ => fits, fun fits => fits as_many reads⟩
          · dsimp only
            rw [if_pos (show vectors.length ≠ inputs.length from count)]
            exact iff_of_true trivial fun as_many => absurd (lengths.trans as_many) count

/-- **Which answers `embed` translates.** -/
theorem embed_translated_iff {server : Peer} {model : String} {inputs : List String}
    {inputType : String} :
    Translated (GoodEmbedding inputs fun i v => ∃ data,
        answerOf pl (server.post "/embeddings" (embedPayload p model inputs inputType)) =
          some data ∧ Belongs pl data i v)
      (embed pl p server model inputs inputType) ↔
        AnswerFits pl (EmbedFits pl inputs)
          (server.post "/embeddings" (embedPayload p model inputs inputType)) := by
  refine postJson_translated_iff fun members answer => ?_
  rw [answer]
  simpa using readEmbeddings_translated_iff

end

end OpsAssist.OpenAI
