/-
# OpsAssist.Providers.Translation -- which malformed answers become errors of the hierarchy

`adapters_translate_iff`: each method of the two adapters gives a well-formed result or raises an
error of the hierarchy for the answers it is made for, and for no others.
Pole: `list_message_escapes`.
-/
import OpsAssist.Providers.Ollama
import OpsAssist.Providers.OpenAICompat

namespace OpsAssist.Wire

set_option autoImplicit false

open Theory Dynamic
open Anthropic (ChatParams)

/-- An adapter of the gateway. -/
inductive Adapter where
  | openAI (p : OpenAI.OpenAICompatibleProvider)
  | ollama (p : Ollama.OllamaProvider)

/-- What the gateway asks of an adapter. -/
inductive Request where
  | chat (model : String) (messages : List ChatMessage) (params : ChatParams)
  | streamChat (model : String) (messages : List ChatMessage) (params : ChatParams)
  | embed (model : String) (inputs : List String) (inputType : String)

section

variable (pl : Platform) (server : Peer)

/-- The answer to a question. -/
def Adapter.chatAnswer (model : String) (messages : List ChatMessage) (params : ChatParams) :
    Adapter → Exchange HttpResponse
  | .openAI _ => server.post "/chat/completions" (OpenAI.chatPayload model messages params false)
  | .ollama p => server.post "/api/chat" (Ollama.chatPayload p model messages params false)

/-- The answer to texts that are to be embedded. -/
def Adapter.embedAnswer (model : String) (inputs : List String) (inputType : String) :
    Adapter → Exchange HttpResponse
  | .openAI p => server.post "/embeddings" (OpenAI.embedPayload p model inputs inputType)
  | .ollama p => server.post "/api/embed" (Ollama.embedPayload p model inputs inputType)

/-- The answer to a question that is to be streamed. -/
def Adapter.streamAnswer (model : String) (messages : List ChatMessage) (params : ChatParams) :
    Adapter → Exchange StreamResponse
  | .openAI _ =>
      server.stream "/chat/completions" (OpenAI.chatPayload model messages params true)
  | .ollama p => server.stream "/api/chat" (Ollama.chatPayload p model messages params true)

/-- `chat` -/
def Adapter.chat (model : String) (messages : List ChatMessage) (params : ChatParams) :
    Adapter → Except Escaped ChatResult
  | .openAI p => OpenAI.chat pl p server model messages params
  | .ollama p => Ollama.chat pl p server model messages params

/-- `stream_chat` -/
def Adapter.streamChat (model : String) (messages : List ChatMessage) (params : ChatParams) :
    Adapter → Streamed
  | .openAI p => OpenAI.streamChat pl p server model messages params
  | .ollama p => Ollama.streamChat pl p server model messages params

/-- `embed` -/
def Adapter.embed (model : String) (inputs : List String) (inputType : String) :
    Adapter → Except Escaped EmbeddingResult
  | .openAI p => OpenAI.embed pl p server model inputs inputType
  | .ollama p => Ollama.embed pl p server model inputs inputType

/-- The vector an answer has for the input at `i`. -/
def Adapter.Belongs (data : Value) (i : Nat) (v : List Float64) : Adapter → Prop
  | .openAI _ => OpenAI.Belongs pl data i v
  | .ollama _ => Ollama.Belongs pl data i v

/-- A well-formed result or an error of the hierarchy: the content and the deltas are texts, and
there is one vector for each input, the one the answer has for it. -/
def Adapter.Translates (adapter : Adapter) : Request → Prop
  | .chat model messages params =>
      Translated GoodChat (adapter.chat pl server model messages params)
  | .streamChat model messages params =>
      GoodStream (adapter.streamChat pl server model messages params)
  | .embed model inputs inputType =>
      Translated (GoodEmbedding inputs fun i v => ∃ data,
          answerOf pl (adapter.embedAnswer server model inputs inputType) = some data ∧
            adapter.Belongs pl data i v)
        (adapter.embed pl server model inputs inputType)

/-- The answer has the shape the method is made for. -/
def Adapter.Fits (adapter : Adapter) : Request → Prop
  | .chat model messages params =>
      AnswerFits pl
        (match adapter with
        | .openAI _ => OpenAI.ChatFits
        | .ollama _ => Ollama.ChatFits)
        (adapter.chatAnswer server model messages params)
  | .streamChat model messages params =>
      OpenedFits
        (match adapter with
        | .openAI _ => OpenAI.StreamFits pl
        | .ollama _ => Ollama.StreamFits pl)
        (adapter.streamAnswer server model messages params)
  | .embed model inputs inputType =>
      AnswerFits pl
        (match adapter with
        | .openAI _ => OpenAI.EmbedFits pl inputs
        | .ollama _ => Ollama.EmbedFits pl inputs)
        (adapter.embedAnswer server model inputs inputType)

end

/-- **Which answers the adapters translate.** -/
theorem adapters_translate_iff (pl : Platform) (server : Peer) (adapter : Adapter)
    (request : Request) :
    adapter.Translates pl server request ↔ adapter.Fits pl server request := by
  cases adapter with
  | openAI p =>
      cases request with
      | chat model messages params => exact OpenAI.chat_translated_iff
      | streamChat model messages params => exact OpenAI.stream_translated_iff
      | embed model inputs inputType => exact OpenAI.embed_translated_iff
  | ollama p =>
      cases request with
      | chat model messages params => exact Ollama.chat_translated_iff
      | streamChat model messages params => exact Ollama.stream_translated_iff
      | embed model inputs inputType => exact Ollama.embed_translated_iff

/-! ## Pole -/

/-- The body of an answer whose message is a list. -/
def listBody : ByteArray := "\x7b\"choices\":[\x7b\"message\":[]\x7d]\x7d".toUTF8

/-- The same, taken apart. -/
def listAnswer : Value := .obj [("choices", .arr [.obj [("message", .arr [])]])]

def plainPlatform : Platform where
  text := fun bytes => (String.fromUTF8? bytes).getD ""
  json := fun bytes =>
    @ite _ (bytes = listBody) (ByteArray.instDecidableEq bytes listBody) (.ok listAnswer)
      (.error .decode)
  loads := fun _ => .error .decode
  str := fun _ => .error .recursion
  seconds := fun _ => none
  float := fun _ => none

def listServer : Peer where
  post := fun _ _ => .response { status := 200, content := listBody }
  stream := fun _ _ => .timeout

/-- **An exception of the language escapes**: the message of the first choice is a list. -/
theorem list_message_escapes :
    ¬(Adapter.openAI { name := "nim" }).Translates plainPlatform listServer
      (.chat "llama" [] {}) := by
  have read : plainPlatform.json listBody = .ok listAnswer := by
    simp [plainPlatform]
  have answer : postJson plainPlatform "nim" HttpResponse.retryAfter
      (.response { status := 200, content := listBody }) = .ok listAnswer := by
    rw [postJson, if_neg (by decide), read]
    rfl
  have escapes : OpenAI.chat plainPlatform { name := "nim" } listServer "llama" [] {} =
      .error (.fault .attribute) := by
    unfold OpenAI.chat
    rw [show ∀ path payload, listServer.post path payload =
      .response { status := 200, content := listBody } from fun _ _ => rfl, answer]
    rfl
  intro good
  have raised : Translated GoodChat
      (OpenAI.chat plainPlatform { name := "nim" } listServer "llama" [] {}) := good
  rw [escapes] at raised
  exact raised

end OpsAssist.Wire
