/-
# OpsAssist.Providers.Wire -- what the adapters share

An adapter posts a request and takes the answer apart.  `classifyHttpStatus` and `postJson` make
of a status, a failed transport or an answer that is no JSON object an error of the hierarchy;
everything later reaches into a value of any shape.  An exception of that is translated only
where the code says so (`convert`).

What the HTTP library, `json.loads`, `str` and `float` of a text do is given by a `Platform`.
-/
import OpsAssist.Host
import OpsAssist.Memory
import OpsAssist.Providers.Base
import OpsAssist.Theory.Dynamic
import OpsAssist.Theory.Reading

namespace OpsAssist.Wire

set_option autoImplicit false

open Theory Dynamic

/-! ## Surroundings -/

/-- Code outside the repository. -/
structure Platform where
  /-- `resp.text`, and a body decoded with `errors="replace"` -/
  text : ByteArray → String
  /-- `resp.json()` -/
  json : ByteArray → Except Fault Value
  /-- `json.loads` -/
  loads : String → Except Fault Value
  /-- `str` -/
  str : Value → Except Fault String
  /-- the seconds of a header -/
  seconds : String → Option ℚ
  /-- `float` of a text -/
  float : String → Option Float64

/-- An exception: of the hierarchy, or of the language. -/
inductive Escaped where
  | provider (err : ProviderError)
  | fault (f : Fault)

/-- What becomes of a request. -/
inductive Exchange (ρ : Type) where
  | timeout
  | transport (exc : String)
  | response (r : ρ)

structure HttpResponse where
  status : Nat
  content : ByteArray
  retryAfter : Option String := none

/-- How a connection breaks off. -/
inductive Break where
  | timeout
  | transport (exc : String)

structure StreamResponse where
  status : Nat
  /-- the body of an error -/
  content : ByteArray := .empty
  retryAfter : Option String := none
  lines : List String
  /-- after the last line -/
  breaks : Option Break := none

/-! ## Errors -/

section

variable (pl : Platform) (name : String)

/-- `ProviderError.__init__` -/
def providerError (kind : ProviderErrorKind) (message : String) : ProviderError :=
  ⟨kind, "[" ++ name ++ "] " ++ message⟩

def responseError (message : String) : Escaped :=
  .provider (providerError name .responseError message)

/-- `classify_http_status` -/
def classifyHttpStatus (status : Nat) (body : String) (retryAfter : Option String) :
    ProviderError :=
  let snippet := String.ofList (body.toList.take 200)
  if status = 429 then
    let retry := match retryAfter with
      | some header => if header = "" then none else pl.seconds header
      | none => none
    providerError name (.rateLimited retry) ("rate limited: " ++ snippet)
  else if status = 401 ∨ status = 403 then
    providerError name .auth ("auth failed (" ++ toString status ++ ")")
  else if status = 404 then providerError name .modelNotFound ("not found: " ++ snippet)
  else if status = 408 ∨ 500 ≤ status then
    providerError name .unavailable ("HTTP " ++ toString status ++ ": " ++ snippet)
  else providerError name .badRequest ("HTTP " ++ toString status ++ ": " ++ snippet)

/-- `httpx.TimeoutException` and `httpx.TransportError`, translated. -/
def brokenOff (timedOut : String) : Break → Escaped
  | .timeout => .provider (providerError name .timeout timedOut)
  | .transport exc => .provider (providerError name .unavailable ("transport error: " ++ exc))

/-- `_post_json`; the `Retry-After` header is what the adapter passes of it. -/
def postJson (retryAfter : HttpResponse → Option String) :
    Exchange HttpResponse → Except Escaped Value
  | .timeout => .error (brokenOff name "request timed out" .timeout)
  | .transport exc => .error (brokenOff name "request timed out" (.transport exc))
  | .response r =>
      if 400 ≤ r.status then
        .error (.provider (classifyHttpStatus pl name r.status (pl.text r.content) (retryAfter r)))
      else
        match convert Fault.isValue (responseError name "non-JSON response") .fault
            (pl.json r.content) with
        | .error e => .error e
        | .ok (.obj members) => .ok (.obj members)
        | .ok _ => .error (responseError name "unexpected response type")

/-! ## Usage -/

structure Usage where
  promptTokens : Int := 0
  completionTokens : Int := 0
  estimated : Bool := false
deriving DecidableEq

/-- `len(value)` -/
def len : Value → Except Fault Nat
  | .str s => .ok s.length
  | .arr items => .ok items.length
  | .obj members => .ok members.length
  | _ => .error .type

/-- `estimate_tokens` of a value that should be a text. -/
def estimateValue (v : Value) : Except Fault Int :=
  if truthy v then (len v).map fun n => ((max 1 ((n + 3) / 4) : Nat) : Int) else .ok 0

/-- `sum(estimate_tokens(m) for m in messages)` -/
def estimateAll (messages : List String) : Int := (messages.map fun m => (estimateTokens m : Int)).sum

/-- The usage when none is reported. -/
def estimatedUsage (messages : List String) (completion : Value) : Except Fault Usage :=
  (estimateValue completion).map fun n =>
    { promptTokens := estimateAll messages, completionTokens := n, estimated := true }

def ZERO : Value := .num (.int 0)

/-- The usage that is reported under these two keys, if it is. -/
def reportedUsage (promptKey completionKey : String) (raw : Value) :
    Except Fault (Option Usage) := do
  match ← getKey promptKey raw with
  | .null => return none
  | _ =>
      let prompt ← toInt (← item promptKey raw)
      let completion ← toInt (orElse (← getKey completionKey raw) ZERO)
      return some { promptTokens := prompt, completionTokens := completion }

/-- The usage that is reported, or else the estimate. -/
def usageOr (reported : Except Fault (Option Usage)) (messages : List String)
    (completion : Value) : Except Fault Usage := do
  match ← reported with
  | some usage => return usage
  | none => estimatedUsage messages completion

/-- The usage of an embedding request. -/
def embedUsage (tokens : Value) (inputs : List String) : Except Fault Usage :=
  match tokens with
  | .null => .ok { promptTokens := estimateAll inputs, estimated := true }
  | _ => (toInt tokens).map fun n => { promptTokens := n }

/-! ## Answers -/

/-- A step without a `try`. -/
def unguarded {α : Type} : Except Fault α → Except Escaped α
  | .ok a => .ok a
  | .error f => .error (.fault f)

/-- `except (KeyError, IndexError, TypeError)` -/
def isLookup : Fault → Bool
  | .key | .index | .type => true
  | _ => false

/-- `except (KeyError, TypeError)` -/
def isMissing : Fault → Bool
  | .key | .type => true
  | _ => false

/-- `except (KeyError, TypeError, ValueError)` -/
def isMisread : Fault → Bool
  | .key | .type => true
  | f => f.isValue

/-- What is said is as untyped as the answer. -/
structure ChatResult where
  content : Value
  usage : Usage
  finishReason : Value

structure StreamEnd where
  usage : Usage
  finishReason : Value

/-- The deltas of a stream, and how it ends. -/
structure Streamed where
  deltas : List Value
  result : Except Escaped StreamEnd

structure EmbeddingResult where
  vectors : List (List Float64)
  usage : Usage

/-- A member of an object, or `None`. -/
abbrev memberOf (key : String) (members : List (String × Value)) : Value :=
  (members.lookup key).getD .null

/-- `(value or {}).get("content")` -/
def contentOf (v : Value) : Except Fault Value := getKey "content" (orElse v (.obj []))

/-- The fragments of a text that is there. -/
def said (text : Value) : List Value := if truthy text then [text] else []

/-- `"".join(texts)` -/
def joined (texts : List Value) : Except Fault Value := do
  let each ← texts.mapM fun v =>
    match v with
    | .str s => .ok s
    | _ => .error .type
  return .str ("".intercalate each)

/-- `list(map(float, embedding(row)))` -/
def rowFloats (embedding : Value → Except Fault Value) (row : Value) :
    Except Fault (List Float64) := do
  (← items (← embedding row)).mapM (toFloat pl.float)

/-- `[list(map(float, embedding(row))) for row in rows]` -/
def vectorsOf (embedding : Value → Except Fault Value) (rows : List Value) :
    Except Fault (List (List Float64)) :=
  rows.mapM (rowFloats pl embedding)

/-- A stream that is opened: its lines are read, unless it is refused. -/
def openStream (retryAfter : StreamResponse → Option String) (read : StreamResponse → Streamed) :
    Exchange StreamResponse → Streamed
  | .timeout => ⟨[], .error (brokenOff name "stream timed out" .timeout)⟩
  | .transport exc => ⟨[], .error (brokenOff name "stream timed out" (.transport exc))⟩
  | .response r =>
      if 400 ≤ r.status then
        ⟨[], .error (.provider (classifyHttpStatus pl name r.status (pl.text r.content)
          (retryAfter r)))⟩
      else read r

/-- What comes of the lines of a stream: their exception, a connection that breaks off behind them,
or what is made of the state they leave. -/
def afterLines {σ : Type} (breaks : Option Break)
    (finish : List Value → σ → Except Escaped StreamEnd) (start : σ) :
    List Value × Except Escaped ((σ → σ) × Bool) → Streamed
  | (deltas, .error e) => ⟨deltas, .error e⟩
  | (deltas, .ok (change, stopped)) =>
      { deltas
        result :=
          match if stopped then none else breaks with
          | some b => .error (brokenOff name "stream timed out" b)
          | none => finish deltas (change start) }

/-- What answers requests: a path, and what is sent there. -/
structure Peer where
  post : String → Value → Exchange HttpResponse
  stream : String → Value → Exchange StreamResponse

def roleText : Role → String
  | .system => "system"
  | .user => "user"
  | .assistant => "assistant"

def messageObjects (messages : List ChatMessage) : Value :=
  .arr (messages.map fun m =>
    .obj [("role", .str (roleText m.role)), ("content", .str m.content.text)])

def contents (messages : List ChatMessage) : List String := messages.map fun m => m.content.text

end

/-! ## What a translation is -/

/-- An error of the hierarchy. -/
def IsProvider : Escaped → Prop
  | .provider _ => True
  | .fault _ => False

/-- The result is as promised, or an error of the hierarchy is raised. -/
def Translated {α : Type} (good : α → Prop) : Except Escaped α → Prop
  | .ok a => good a
  | .error e => IsProvider e

/-- Its content is a text. -/
def GoodChat (r : ChatResult) : Prop := ∃ s, r.content = .str s

/-- A value where a text is expected, and nothing may stand for the empty one. -/
def TextOrNothing (v : Value) : Prop := truthy v = true → ∃ s, v = .str s

/-- `int()` takes the value. -/
def IsInt (v : Value) : Prop := ∃ z, toInt v = .ok z

/-- Nothing, or an object. -/
def readable : Value → Bool
  | .obj _ => true
  | v => !truthy v

/-- Nothing, or an object whose content is a text or nothing. -/
def ContentFits (v : Value) : Prop :=
  truthy v = true → ∃ members, v = .obj members ∧ TextOrNothing (memberOf "content" members)

/-- The content that is read, or `None`. -/
def contentIn : Value → Value
  | .obj members => memberOf "content" members
  | _ => .null

theorem contentOf_eq (v : Value) :
    contentOf v = if readable v then .ok (contentIn v) else .error .attribute := by
  unfold contentOf orElse
  cases v with
  | obj members => cases members <;> simp [readable, contentIn, truthy, memberOf]
  | _ =>
      simp only [readable, contentIn]
      split <;> simp_all [getKey]

theorem contentFits_iff {v : Value} :
    ContentFits v ↔ readable v = true ∧ TextOrNothing (contentIn v) := by
  unfold ContentFits TextOrNothing
  cases v with
  | obj members => cases members <;> simp [readable, contentIn, truthy, memberOf]
  | _ => simp [readable, contentIn]

theorem contentIn_unread {v : Value} (unread : readable v = false) : contentIn v = .null := by
  cases v <;> first | rfl | cases unread

theorem orElse_text {v : Value} : (∃ s, orElse v (.str "") = .str s) ↔ TextOrNothing v := by
  unfold orElse TextOrNothing
  cases truthy v <;> simp

/-- Usage is not reported, or both counts are taken by `int()`. -/
def Reports (promptKey completionKey : String) (raw : Value) : Prop :=
  ∃ members, raw = .obj members ∧
    ∀ v, members.lookup promptKey = some v → v ≠ .null →
      IsInt v ∧ IsInt (orElse ((members.lookup completionKey).getD .null) ZERO)

section

variable {α β : Type} {good : α → Prop} {pl : Platform} {name : String}

@[simp] theorem translated_ok {a : α} : Translated good (.ok a) ↔ good a := Iff.rfl

@[simp] theorem translated_provider {err : ProviderError} :
    Translated good (.error (.provider err)) := trivial

@[simp] theorem translated_responseError {message : String} :
    Translated good (.error (responseError name message)) := trivial

@[simp] theorem not_translated_fault {f : Fault} : ¬Translated good (.error (.fault f)) := id

theorem translated_bind {x : Except Escaped β} {next : β → Except Escaped α} :
    Translated good (x >>= next) ↔ Translated (fun b => Translated good (next b)) x := by
  cases x <;> rfl

/-- A guarded step: what is caught is translated. -/
theorem translated_convert {caught : Fault → Bool} {message : String} {r : Except Fault α} :
    Translated good (convert caught (responseError name message) .fault r) ↔
      match r with
      | .ok a => good a
      | .error f => caught f = true := by
  cases r with
  | ok a => rfl
  | error f => cases kind : caught f <;> simp [convert, kind]

/-- The integers a program takes: integers and truth values, finite floats, and texts of integers. -/
theorem isInt_iff {v : Value} : IsInt v ↔
    (∃ z, v = .num (.int z)) ∨ (∃ b, v = .bool b) ∨ (∃ x, v = .num (.float (.finite x))) ∨
      ∃ s, v = .str s ∧ (intOfText s.toList).isSome = true := by
  unfold IsInt
  cases v with
  | num n =>
      cases n with
      | int z => simp [toInt]
      | float x => cases x <;> simp [toInt]
  | str s => cases read : intOfText s.toList <;> simp [toInt, read]
  | _ => simp [toInt]

/-- A step without a `try` must succeed. -/
theorem translated_unguarded {r : Except Fault β} {next : β → Except Escaped α} :
    Translated good (unguarded r >>= next) ↔ ∃ b, r = .ok b ∧ Translated good (next b) := by
  cases r with
  | ok b => simp [unguarded, bind, Except.bind]
  | error f => simp [unguarded, bind, Except.bind]

theorem isInt_zero : IsInt ZERO := ⟨0, rfl⟩

theorem estimateValue_text (s : String) :
    estimateValue (.str s) = .ok (estimateTokens s : Int) := by
  unfold estimateValue estimateTokens
  by_cases empty : s = ""
  · simp [truthy, empty]
  · simp [truthy, empty, len, Except.map]

theorem reportedUsage_none {promptKey completionKey : String} {members : List (String × Value)}
    (silent : (members.lookup promptKey).getD .null = .null) :
    reportedUsage promptKey completionKey (.obj members) = .ok none := by
  rw [reportedUsage, getKey_obj, silent]
  rfl

theorem reportedUsage_some {promptKey completionKey : String} {members : List (String × Value)}
    {v : Value} (there : members.lookup promptKey = some v) (told : v ≠ .null) :
    reportedUsage promptKey completionKey (.obj members) = do
      let prompt ← toInt v
      let completion ← toInt (orElse ((members.lookup completionKey).getD .null) ZERO)
      return some { promptTokens := prompt, completionTokens := completion } := by
  have prompt : getKey promptKey (.obj members) = .ok v := by rw [getKey_obj, there]; rfl
  have here : item promptKey (.obj members) = .ok v := item_ok.mpr ⟨members, rfl, there⟩
  rw [reportedUsage, prompt]
  cases v with
  | null => exact absurd rfl told
  | _ => simp only [bind, Except.bind, here, getKey_obj]

/-- **Which reported usage is read.** -/
theorem reportedUsage_ok {promptKey completionKey : String} {raw : Value} :
    (∃ usage, reportedUsage promptKey completionKey raw = .ok usage) ↔
      Reports promptKey completionKey raw := by
  unfold Reports
  cases raw with
  | obj members =>
      simp only [Json.obj.injEq, exists_eq_left']
      cases there : members.lookup promptKey with
      | none =>
          rw [reportedUsage_none (by rw [there]; rfl)]
          simp
      | some v =>
          by_cases told : v = .null
          · rw [reportedUsage_none (by rw [there, told]; rfl)]
            simp [told]
          · rw [reportedUsage_some there told]
            simp only [bind_ok_iff, Option.some.injEq, forall_eq', IsInt]
            constructor
            · rintro ⟨usage, prompt, read, completion, read', -⟩ -
              exact ⟨⟨prompt, read⟩, completion, read'⟩
            · intro both
              obtain ⟨⟨prompt, read⟩, completion, read'⟩ := both told
              exact ⟨_, prompt, read, completion, read', rfl⟩
  | _ => simp [reportedUsage, getKey, bind, Except.bind]

/-- The usage of a text is reported as it should be, or not at all. -/
theorem usageOr_text {r : Except Fault (Option Usage)} {messages : List String} {s : String} :
    (∃ usage, usageOr r messages (.str s) = .ok usage) ↔ ∃ reported, r = .ok reported := by
  cases r with
  | error f => simp [usageOr, bind, Except.bind]
  | ok reported =>
      cases reported <;>
        simp [usageOr, bind, Except.bind, pure, Except.pure, estimatedUsage, estimateValue_text,
          Except.map]

theorem embedUsage_ok {tokens : Value} {inputs : List String} :
    (∃ usage, embedUsage tokens inputs = .ok usage) ↔ (tokens ≠ .null → IsInt tokens) := by
  by_cases none : tokens = .null
  · simp [none, embedUsage]
  · have told : embedUsage tokens inputs =
        (toInt tokens).map fun n => { promptTokens := n } := by
      cases tokens <;> first | rfl | exact absurd rfl none
    rw [told]
    unfold IsInt
    cases toInt tokens <;> simp [Except.map, none]

/-- The JSON of an answer. -/
def answerOf (pl : Platform) : Exchange HttpResponse → Option Value
  | .response r => (pl.json r.content).toOption
  | _ => none

/-- A JSON object has the shape; what fails before, or is no object, is translated. -/
def AnswerFits (pl : Platform) (fits : List (String × Value) → Prop) :
    Exchange HttpResponse → Prop
  | .timeout | .transport _ => True
  | .response r => r.status < 400 →
      match pl.json r.content with
      | .ok (.obj members) => fits members
      | .ok _ => True
      | .error f => f.isValue = true

theorem postJson_translated_iff {retryAfter : HttpResponse → Option String}
    {x : Exchange HttpResponse} {next : Value → Except Escaped α}
    {fits : List (String × Value) → Prop}
    (shape : ∀ members, answerOf pl x = some (.obj members) →
      (Translated good (next (.obj members)) ↔ fits members)) :
    Translated good (postJson pl name retryAfter x >>= next) ↔ AnswerFits pl fits x := by
  cases x with
  | timeout => exact iff_of_true trivial trivial
  | transport exc => exact iff_of_true trivial trivial
  | response r =>
      by_cases failed : 400 ≤ r.status
      · simp only [postJson, if_pos failed]
        exact iff_of_true trivial fun low => absurd failed (Nat.not_le.mpr low)
      · simp only [postJson, AnswerFits, if_neg failed, Nat.not_le.mp failed, forall_const]
        cases read : pl.json r.content with
        | error f => cases kind : f.isValue <;> simp [convert, kind, bind, Except.bind]
        | ok v =>
            cases v with
            | obj members => exact shape members (by rw [answerOf, read]; rfl)
            | _ => exact iff_of_true trivial trivial

/-- The lines of an answer that is no refusal fit. -/
def OpenedFits (fits : StreamResponse → Prop) : Exchange StreamResponse → Prop
  | .timeout | .transport _ => True
  | .response r => r.status < 400 → fits r

end

/-! ## Texts -/

def IsText (v : Value) : Prop := ∃ s, v = .str s

/-- All of them are texts. -/
def AllTexts (vs : List Value) : Prop := ∀ v ∈ vs, IsText v

theorem allTexts_append {vs ws : List Value} :
    AllTexts (vs ++ ws) ↔ AllTexts vs ∧ AllTexts ws := by
  simp only [AllTexts, List.mem_append, or_imp, forall_and]

theorem joined_texts {vs : List Value} (texts : AllTexts vs) : ∃ s, joined vs = .ok (.str s) := by
  have each : ∃ ss, vs.mapM (fun v => match v with
      | .str s => (.ok s : Except Fault String)
      | _ => .error .type) = .ok ss := by
    induction vs with
    | nil => exact ⟨[], rfl⟩
    | cons v vs ih =>
        obtain ⟨s, rfl⟩ := texts v List.mem_cons_self
        obtain ⟨ss, rest⟩ := ih fun w mem => texts w (List.mem_cons_of_mem _ mem)
        exact ⟨s :: ss, by simp [List.mapM_cons, rest, bind, Except.bind, pure, Except.pure]⟩
  obtain ⟨ss, all⟩ := each
  exact ⟨_, by rw [joined, all]; rfl⟩

/-- Nothing else is joined. -/
theorem joined_ok {vs : List Value} {w : Value} (joins : joined vs = .ok w) :
    AllTexts vs ∧ ∃ s, w = .str s := by
  obtain ⟨each, texts, same⟩ := bind_ok_iff.mp joins
  cases same
  refine ⟨fun v mem => ?_, _, rfl⟩
  obtain ⟨count, each_text⟩ := mapM_ok_at texts
  obtain ⟨i, bound, rfl⟩ := List.getElem_of_mem mem
  have here := each_text i bound (count ▸ bound)
  cases kind : vs[i] with
  | str s => exact ⟨s, rfl⟩
  | _ => rw [kind] at here; cases here

/-- Texts are handed on, and an exception is of the hierarchy. -/
def GoodStream (s : Streamed) : Prop := AllTexts s.deltas ∧ Translated (fun _ => True) s.result

theorem brokenOff_provider {name timedOut : String} {b : Break} :
    IsProvider (brokenOff name timedOut b) := by cases b <;> trivial

theorem openStream_good_iff {pl : Platform} {name : String}
    {retryAfter : StreamResponse → Option String} {read : StreamResponse → Streamed}
    {fits : StreamResponse → Prop} (lines : ∀ r, GoodStream (read r) ↔ fits r)
    {x : Exchange StreamResponse} :
    GoodStream (openStream pl name retryAfter read x) ↔ OpenedFits fits x := by
  have refused : ∀ e, IsProvider e → GoodStream ⟨[], .error e⟩ := fun e provider =>
    ⟨nofun, provider⟩
  cases x with
  | timeout => exact iff_of_true (refused _ trivial) trivial
  | transport exc => exact iff_of_true (refused _ trivial) trivial
  | response r =>
      by_cases failed : 400 ≤ r.status
      · simp only [openStream, if_pos failed]
        exact iff_of_true (refused _ trivial) fun low => absurd failed (Nat.not_le.mpr low)
      · simp only [openStream, OpenedFits, if_neg failed, Nat.not_le.mp failed, forall_const]
        exact lines r

/-- What is handed on of a text. -/
theorem allTexts_said {text : Value} : AllTexts (said text) ↔ TextOrNothing text := by
  unfold said TextOrNothing AllTexts
  by_cases there : truthy text = true <;> simp [there, IsText]

/-- **A stream is well-formed** when its lines are, and so is what is made of them in the end. -/
theorem afterLines_good_iff {σ : Type} {name : String} {breaks : Option Break}
    {finish : List Value → σ → Except Escaped StreamEnd} {start : σ}
    {run : List Value × Except Escaped ((σ → σ) × Bool)} :
    GoodStream (afterLines name breaks finish start run) ↔
      Sound IsText IsProvider run ∧ ∀ change stopped, run.2 = .ok (change, stopped) →
        (stopped = true ∨ breaks = none) →
          Translated (fun _ => True) (finish run.1 (change start)) := by
  obtain ⟨deltas, outcome⟩ := run
  cases outcome with
  | error e => simp [afterLines, GoodStream, Sound, AllTexts, Translated]
  | ok r =>
      obtain ⟨change, stopped⟩ := r
      cases stopped with
      | true => simp [afterLines, GoodStream, Sound, AllTexts]
      | false =>
          cases breaks with
          | none => simp [afterLines, GoodStream, Sound, AllTexts]
          | some b =>
              have provider : Translated (fun _ => True)
                  (.error (brokenOff name "stream timed out" b) : Except Escaped StreamEnd) :=
                brokenOff_provider
              simp [afterLines, GoodStream, Sound, AllTexts, provider]

/-! ## Embeddings -/

/-- An integer beyond the floats. -/
def TooLarge (v : Value) : Prop :=
  ∃ z : Int, v = .num (.int z) ∧ Binary64.nearest (z < 0) z.natAbs 1 = none

section

variable {pl : Platform} {ofText : String → Option Float64} {v : Value} {f : Fault}

theorem orOverflow_fault {near : Option Binary64} (raised : orOverflow near = .error f) :
    f = .overflow ∧ near = none := by
  cases near with
  | some x => cases raised
  | none => cases raised; exact ⟨rfl, rfl⟩

theorem floatOfInt_fault {z : Int} (raised : floatOfInt z = .error f) :
    f = .overflow ∧ Binary64.nearest (z < 0) z.natAbs 1 = none :=
  orOverflow_fault raised

theorem floatOfInt_bool (b : Bool) : Binary64.nearest
    ((if b then 1 else 0 : Int) < 0) (if b then 1 else 0 : Int).natAbs 1 ≠ none := by
  cases b <;> decide +kernel

theorem toFloat_fault (raised : toFloat ofText v = .error f) :
    f = .overflow ∧ TooLarge v ∨ f = .type ∨ f = .value := by
  cases v with
  | bool b => exact absurd (floatOfInt_fault raised).2 (floatOfInt_bool b)
  | num n =>
      cases n with
      | float x => cases raised
      | int z => exact .inl ⟨(floatOfInt_fault raised).1, z, rfl, (floatOfInt_fault raised).2⟩
  | str s =>
      rw [toFloat] at raised
      cases read : ofText s with
      | some x => simp [read] at raised
      | none => rw [read] at raised; cases raised; exact .inr (.inr rfl)
  | _ => cases raised; exact .inr (.inl rfl)

theorem toFloat_overflow_iff : toFloat ofText v = .error .overflow ↔ TooLarge v := by
  constructor
  · intro raised
    rcases toFloat_fault raised with ⟨-, large⟩ | kind | kind
    · exact large
    · cases kind
    · cases kind
  · rintro ⟨z, rfl, near⟩
    exact congrArg orOverflow near

end

section

variable (pl : Platform) (embedding : Value → Except Fault Value)

def IsFloat (v : Value) : Prop := ∃ x, toFloat pl.float v = .ok x

/-- The row has floats. -/
def RowReads (row : Value) : Prop := ∃ floats, rowFloats pl embedding row = .ok floats

/-- The first value of the row that is refused is an integer beyond the floats. -/
def RowOverflows (row : Value) : Prop :=
  ∃ v front x back, embedding row = .ok v ∧ items v = .ok (front ++ x :: back) ∧
    (∀ y ∈ front, IsFloat pl y) ∧ TooLarge x

/-- So is the first that is refused of all the rows. -/
def Oversized (rows : List Value) : Prop :=
  ∃ front row back, rows = front ++ row :: back ∧ (∀ r ∈ front, RowReads pl embedding r) ∧
    RowOverflows pl embedding row

end

section

variable {pl : Platform} {embedding : Value → Except Fault Value}
  (lookups : ∀ {row f}, embedding row = .error f → f = .key ∨ f = .type)

include lookups

theorem rowFloats_fault {row : Value} {f : Fault} (raised : rowFloats pl embedding row = .error f) :
    f = .overflow ∧ RowOverflows pl embedding row ∨ isMisread f = true := by
  unfold rowFloats at raised
  rcases bind_error_iff.mp raised with here | ⟨v, found, raised⟩
  · rcases lookups here with rfl | rfl <;> exact .inr rfl
  · rcases bind_error_iff.mp raised with here | ⟨vs, listed, raised⟩
    · exact .inr (items_fault here ▸ rfl)
    · obtain ⟨front, x, back, rfl, before, refused⟩ := mapM_error_iff.mp raised
      rcases toFloat_fault refused with ⟨rfl, large⟩ | rfl | rfl
      · exact .inl ⟨rfl, v, front, x, back, found, listed, before, large⟩
      · exact .inr rfl
      · exact .inr rfl

theorem vectorsOf_fault {rows : List Value} {f : Fault}
    (raised : vectorsOf pl embedding rows = .error f) :
    f = .overflow ∧ Oversized pl embedding rows ∨ isMisread f = true := by
  obtain ⟨front, row, back, rfl, before, refused⟩ := mapM_error_iff.mp raised
  rcases rowFloats_fault lookups refused with ⟨rfl, exceeds⟩ | kind
  · exact .inl ⟨rfl, front, row, back, rfl, before, exceeds⟩
  · exact .inr kind

omit lookups in
theorem rowFloats_overflow {row : Value} (exceeds : RowOverflows pl embedding row) :
    rowFloats pl embedding row = .error .overflow := by
  obtain ⟨v, front, x, back, found, listed, before, large⟩ := exceeds
  have refused : (front ++ x :: back).mapM (toFloat pl.float) = .error .overflow :=
    mapM_error_iff.mpr ⟨front, x, back, rfl, before, toFloat_overflow_iff.mpr large⟩
  rw [rowFloats, found]
  simp only [bind, Except.bind, listed, refused]

omit lookups in
theorem vectorsOf_overflow {rows : List Value} (exceeds : Oversized pl embedding rows) :
    vectorsOf pl embedding rows = .error .overflow := by
  obtain ⟨front, row, back, rfl, before, exceeds⟩ := exceeds
  exact mapM_error_iff.mpr ⟨front, row, back, rfl, before, rowFloats_overflow exceeds⟩

omit lookups in
/-- Rows that are read have floats only. -/
theorem read_fits {rows : List Value} {vectors : List (List Float64)}
    (read : vectorsOf pl embedding rows = .ok vectors) :
    ¬Oversized pl embedding rows ∧ ∀ row ∈ rows, RowReads pl embedding row := by
  refine ⟨fun large => ?_, fun row mem => ?_⟩
  · cases (vectorsOf_overflow large).symm.trans read
  · obtain ⟨count, each⟩ := mapM_ok_at read
    obtain ⟨i, bound, rfl⟩ := List.getElem_of_mem mem
    exact ⟨_, each i bound (count ▸ bound)⟩

omit lookups in
/-- Rows with another exception are neither too large nor floats only. -/
theorem unread_fits {rows : List Value} {f : Fault} {rest : Prop}
    (raised : vectorsOf pl embedding rows = .error f) (other : f ≠ .overflow) :
    ¬Oversized pl embedding rows ∧ ((∀ row ∈ rows, RowReads pl embedding row) → rest) := by
  refine ⟨fun large => ?_, fun all => ?_⟩
  · exact other (Except.error.inj (raised.symm.trans (vectorsOf_overflow large)))
  · obtain ⟨_, row, _, rfl, -, refused⟩ := mapM_error_iff.mp raised
    obtain ⟨v, there⟩ := all row (by simp)
    cases refused.symm.trans there

end

/-- One vector for each input, and the one at `i` belongs to the input at `i`. -/
def GoodEmbedding (inputs : List String) (belongs : Nat → List Float64 → Prop)
    (r : EmbeddingResult) : Prop :=
  r.vectors.length = inputs.length ∧
    ∀ i < inputs.length, ∃ v, r.vectors[i]? = some v ∧ belongs i v

end OpsAssist.Wire
