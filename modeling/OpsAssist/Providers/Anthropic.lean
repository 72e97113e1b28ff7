/-
# OpsAssist.Providers.Anthropic -- what a request to Claude says

Claude takes system instructions apart from the conversation and wants its turns to
alternate, so consecutive messages of one role are merged.  `request_preserves`: the turns
are the other messages, in order and grouped by role, and the system text is the system
messages, wherever they stood.
-/
import Mathlib.Data.List.Chain
import OpsAssist.Host
import OpsAssist.Rag

namespace OpsAssist.Anthropic

set_option autoImplicit false

open Theory

/-- A fifth, as a float. -/
def DEFAULT_TEMPERATURE : Number :=
  .float (.finite ⟨false, 7205759403792794, 1019, by decide⟩)

structure ChatParams where
  temperature : Option Number := some DEFAULT_TEMPERATURE
  maxTokens : Nat := 1024

/-- One element of `turns`. -/
structure ClaudeTurn where
  role : Role
  content : String
deriving DecidableEq

structure Request where
  model : String
  maxTokens : Nat
  messages : List ClaudeTurn
  system : Option String
  /-- `extra_body["temperature"]` -/
  temperature : Option Number

def BLANK_LINE : String := "\n\n"

/-- One round of the loop over the messages. -/
def addMessage (turns : List ClaudeTurn) (m : ChatMessage) : List ClaudeTurn :=
  if m.role = .system then turns
  else
    match turns.getLast? with
    | some last =>
        if last.role = m.role then
          turns.dropLast ++
            [{ last with content := last.content ++ (BLANK_LINE ++ m.content.text) }]
        else turns ++ [{ role := m.role, content := m.content.text }]
    | none => [{ role := m.role, content := m.content.text }]

/-- `_request` -/
def request (model : String) (messages : List ChatMessage) (params : ChatParams) : Request :=
  let system := BLANK_LINE.intercalate
    ((messages.filter fun m => m.role = .system).map fun m => m.content.text)
  { model
    maxTokens := params.maxTokens
    messages := messages.foldl addMessage []
    system := if system = "" then none else some system
    temperature := params.temperature }

/-! ## Turns -/

/-- The messages of the conversation itself. -/
def spoken (messages : List ChatMessage) : List ChatMessage :=
  messages.filter fun m => m.role ≠ .system

/-- Consecutive messages of one role, as the turn they become. -/
structure Speech where
  role : Role
  messages : List ChatMessage
  some_message : messages ≠ []
  one_role : ∀ m ∈ messages, m.role = role

def Speech.turn (s : Speech) : ClaudeTurn where
  role := s.role
  content := BLANK_LINE.intercalate (s.messages.map fun m => m.content.text)

/-- The turns are the messages of the conversation, grouped by role. -/
structure Conserved (messages : List ChatMessage) (turns : List ClaudeTurn) : Prop where
  roles : ∀ t ∈ turns, t.role = .user ∨ t.role = .assistant
  alternate : turns.IsChain fun t u => t.role ≠ u.role
  speeches : ∃ speeches : List Speech, turns = speeches.map Speech.turn ∧
    (speeches.flatMap Speech.messages) = spoken messages

theorem role_cases {role : Role} (other : role ≠ .system) : role = .user ∨ role = .assistant := by
  cases role with
  | system => exact absurd rfl other
  | user => exact .inl rfl
  | assistant => exact .inr rfl

def Speech.single (m : ChatMessage) : Speech where
  role := m.role
  messages := [m]
  some_message := List.cons_ne_nil m []
  one_role := by simp

def Speech.extend (s : Speech) (m : ChatMessage) (same : m.role = s.role) : Speech where
  role := s.role
  messages := s.messages ++ [m]
  some_message := List.append_ne_nil_of_left_ne_nil s.some_message _
  one_role := List.forall_mem_append.mpr ⟨s.one_role, by simpa using same⟩

theorem turn_single (m : ChatMessage) :
    (Speech.single m).turn = { role := m.role, content := m.content.text } := by
  simp [Speech.turn, Speech.single]

theorem turn_extend (s : Speech) (m : ChatMessage) (same : m.role = s.role) :
    (s.extend m same).turn =
      { s.turn with content := s.turn.content ++ (BLANK_LINE ++ m.content.text) } := by
  have held : s.messages.map (fun m => m.content.text) ≠ [] := by simpa using s.some_message
  simp only [Speech.turn, Speech.extend, List.map_append]
  rw [String.intercalate_append_of_ne_nil held (by simp)]
  simp [String.append_assoc]

/-- **One more message.** -/
theorem conserved_addMessage {messages : List ChatMessage} {turns : List ClaudeTurn}
    (before : Conserved messages turns) (m : ChatMessage) :
    Conserved (messages ++ [m]) (addMessage turns m) := by
  obtain ⟨roles, alternate, speeches, rfl, grouped⟩ := before
  unfold addMessage
  by_cases system : m.role = .system
  · rw [if_pos system]
    refine ⟨roles, alternate, speeches, rfl, ?_⟩
    rw [grouped]
    simp [spoken, system]
  · rw [if_neg system]
    have more : spoken (messages ++ [m]) = spoken messages ++ [m] := by simp [spoken, system]
    rcases List.eq_nil_or_concat speeches with rfl | ⟨init, last, rfl⟩
    · refine ⟨?_, List.isChain_singleton _, [.single m], ?_, ?_⟩
      · simpa using role_cases system
      · simp [turn_single]
      · rw [more, ← grouped]
        simp [Speech.single]
    · rw [List.concat_eq_append] at roles alternate grouped ⊢
      rw [List.map_append, List.map_singleton] at roles alternate ⊢
      rw [List.getLast?_concat]
      dsimp only
      by_cases same : last.turn.role = m.role
      · -- the message joins the last turn
        have here : m.role = last.role := same.symm
        rw [if_pos same, List.dropLast_concat, ← turn_extend last m here]
        have role : (last.extend m here).turn.role = last.turn.role := rfl
        refine ⟨?_, ?_, init ++ [last.extend m here], by simp, ?_⟩
        · intro t mem
          rcases List.mem_append.mp mem with old | new
          · exact roles t (List.mem_append_left _ old)
          · rw [List.mem_singleton.mp new, role]
            exact roles _ (by simp)
        · rw [List.isChain_append] at alternate ⊢
          refine ⟨alternate.1, List.isChain_singleton _, ?_⟩
          intro t there u new
          cases new
          have apart : t.role ≠ last.turn.role := alternate.2.2 t there last.turn (by simp)
          rwa [← role] at apart
        · rw [more, ← grouped]
          simp [Speech.extend]
      · rw [if_neg same, ← turn_single]
        refine ⟨?_, ?_, (init ++ [last]) ++ [.single m], by simp, ?_⟩
        · refine List.forall_mem_append.mpr ⟨roles, ?_⟩
          simpa [turn_single] using role_cases system
        · refine List.isChain_append.mpr ⟨alternate, List.isChain_singleton _, ?_⟩
          intro t there u new
          rw [List.getLast?_concat] at there
          cases there
          cases new
          exact same
        · rw [more, ← grouped]
          simp [Speech.single]

theorem conserved_turns (messages : List ChatMessage) :
    Conserved messages (messages.foldl addMessage []) := by
  induction messages using List.reverseRecOn with
  | nil => exact ⟨nofun, List.isChain_nil, [], rfl, rfl⟩
  | append_singleton messages m ih =>
      rw [List.foldl_append]
      exact conserved_addMessage ih m

/-- **A request says what the messages say**: the conversation in turns that alternate, and
the system messages apart. -/
theorem request_preserves (model : String) (messages : List ChatMessage) (params : ChatParams) :
    Conserved messages (request model messages params).messages ∧
      (request model messages params).system.getD "" = BLANK_LINE.intercalate
        ((messages.filter fun m => m.role = .system).map fun m => m.content.text) := by
  refine ⟨conserved_turns messages, ?_⟩
  unfold request
  dsimp only
  split
  · rename_i empty
    exact empty.symm
  · rfl

/-- A system note between two messages of the user does not part them. -/
example :
    ([⟨.user, .plain "a"⟩, ⟨.system, .plain "note"⟩, ⟨.user, .plain "b"⟩,
        ⟨.assistant, .plain "c"⟩] : List ChatMessage).foldl addMessage [] =
      [⟨.user, "a\n\nb"⟩, ⟨.assistant, "c"⟩] := by
  decide

end OpsAssist.Anthropic
