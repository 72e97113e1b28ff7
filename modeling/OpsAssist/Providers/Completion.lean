/-
# OpsAssist.Providers.Completion -- when a stream counts as complete

A provider signals that its answer is complete, and may report an error instead.  `Completes` is
what a stream promises then: it ends well only where completion was signalled and no error was
reported, the rest is an error of the hierarchy, and the deltas are the fragments of its lines.
`streams_complete_iff` says for which responses the two adapters keep it.
Pole: `cut_stream_succeeds`.
-/
import OpsAssist.Providers.Translation

namespace OpsAssist.Wire

set_option autoImplicit false

open Theory Dynamic
open Anthropic (ChatParams)

/-! ## What a stream promises -/

/-- What the lines of a stream mean in a provider's format. -/
structure Format where
  /-- no line is read after this one -/
  ends : String → Bool
  fragments : String → List Value
  /-- the answer is complete -/
  Signals : String → Prop
  /-- the line carries an error -/
  Reports : String → Prop

namespace Format

variable (f : Format)

/-- The lines up to the one that ends the reading. -/
def heard : Exchange StreamResponse → List String
  | .response r => if r.status < 400 then upTo f.ends r.lines else []
  | .timeout | .transport _ => []

def Signalled (x : Exchange StreamResponse) : Prop := ∃ line ∈ f.heard x, f.Signals line

def Reported (x : Exchange StreamResponse) : Prop := ∃ line ∈ f.heard x, f.Reports line

/-- The lines simply run out. -/
def Stops : Exchange StreamResponse → Prop
  | .response r => r.status < 400 ∧ (∀ line ∈ r.lines, f.ends line = false) ∧ r.breaks = none ∧
      ¬f.Signalled (.response r)
  | .timeout | .transport _ => False

/-- The promise. -/
structure Completes (x : Exchange StreamResponse) (s : Streamed) : Prop where
  signalled : (∃ e, s.result = .ok e) → f.Signalled x ∧ ¬f.Reported x
  raised : f.Stops x ∨ f.Reported x → ∃ err, s.result = .error (.provider err)
  deltas : s.deltas = (f.heard x).flatMap f.fragments

variable {f} {x : Exchange StreamResponse} {s : Streamed}

/-- What only a line says that ends the reading. -/
theorem heard_iff {r : StreamResponse} (low : r.status < 400) {p : String → Prop}
    (ending : ∀ line, p line → f.ends line = true) :
    (∃ line ∈ f.heard (.response r), p line) ↔
      ∃ line, r.lines.find? f.ends = some line ∧ p line := by
  rw [heard, if_pos low]
  constructor
  · rintro ⟨line, mem, here⟩
    exact ⟨line, find_of_mem_upTo (ending line here) mem, here⟩
  · rintro ⟨line, found, here⟩
    exact ⟨line, mem_upTo_of_find found, here⟩

/-- A line that ends the reading is no end of the lines. -/
theorem not_stops {r : StreamResponse} {line : String} (found : r.lines.find? f.ends = some line) :
    ¬f.Stops (.response r) := fun stops => by
  have here := stops.2.1 line (List.mem_of_find?_eq_some found)
  cases (List.find?_some found).symm.trans here

/-- An error of the hierarchy keeps the promise. -/
theorem completes_refused {err : ProviderError} (refused : s.result = .error (.provider err))
    (deltas : s.deltas = (f.heard x).flatMap f.fragments) : f.Completes x s where
  signalled := by
    rintro ⟨e, same⟩
    cases refused.symm.trans same
  raised _ := ⟨err, refused⟩
  deltas := deltas

/-- Where the lines have not run out and nothing is reported, only a signal is needed. -/
theorem completes_quiet (goes : ¬f.Stops x) (silent : ¬f.Reported x)
    (deltas : s.deltas = (f.heard x).flatMap f.fragments) :
    f.Completes x s ↔ ((∃ e, s.result = .ok e) → f.Signalled x) :=
  ⟨fun kept ended => (kept.signalled ended).1, fun told =>
    ⟨fun ended => ⟨told ended, silent⟩, fun either => absurd either (not_or.mpr ⟨goes, silent⟩),
      deltas⟩⟩

/-- Where no error of the hierarchy is raised, nothing may have been reported, and the lines may
not have run out. -/
theorem completes_iff (unrefused : ∀ err, s.result ≠ .error (.provider err))
    (told : (∃ e, s.result = .ok e) → ¬f.Stops x → f.Signalled x)
    (deltas : s.deltas = (f.heard x).flatMap f.fragments) :
    f.Completes x s ↔ ¬f.Stops x ∧ ¬f.Reported x := by
  constructor
  · intro kept
    refine ⟨fun stops => ?_, fun reported => ?_⟩
    · obtain ⟨err, refused⟩ := kept.raised (.inl stops)
      exact unrefused err refused
    · obtain ⟨err, refused⟩ := kept.raised (.inr reported)
      exact unrefused err refused
  · rintro ⟨goes, silent⟩
    exact (completes_quiet goes silent deltas).mpr fun ended => told ended goes

/-- So with an exception of the language. -/
theorem completes_of_fault {g : Fault} (raised : s.result = .error (.fault g))
    (deltas : s.deltas = (f.heard x).flatMap f.fragments) :
    f.Completes x s ↔ ¬f.Stops x ∧ ¬f.Reported x := by
  refine completes_iff (fun err same => ?_) ?_ deltas
  · cases raised.symm.trans same
  · rintro ⟨e, same⟩
    cases raised.symm.trans same

/-- A stream that is not opened keeps the promise. -/
theorem openStream_completes_iff {pl : Platform} {name : String}
    {retryAfter : StreamResponse → Option String} {read : StreamResponse → Streamed}
    {counts : StreamResponse → Prop}
    (lines : ∀ r, r.status < 400 → (f.Completes (.response r) (read r) ↔ counts r)) :
    f.Completes x (openStream pl name retryAfter read x) ↔ OpenedFits counts x := by
  cases x with
  | timeout => exact iff_of_true (completes_refused rfl rfl) trivial
  | transport exc => exact iff_of_true (completes_refused rfl rfl) trivial
  | response r =>
      by_cases failed : 400 ≤ r.status
      · simp only [openStream, if_pos failed]
        refine iff_of_true (completes_refused rfl ?_) fun low => absurd failed (Nat.not_le.mpr low)
        rw [heard, if_neg (Nat.not_lt.mpr failed)]
        rfl
      · simp only [openStream, OpenedFits, if_neg failed, Nat.not_le.mp failed, forall_const]
        exact lines r (Nat.not_le.mp failed)

end Format

section

variable {σ : Type} {name : String} {breaks : Option Break}
  {finish : List Value → σ → Except Escaped StreamEnd} {start : σ}
  {run : List Value × Except Escaped ((σ → σ) × Bool)}

theorem afterLines_deltas : (afterLines name breaks finish start run).deltas = run.1 := by
  obtain ⟨deltas, outcome⟩ := run
  cases outcome <;> rfl

theorem afterLines_raised {e : Escaped} (raised : run.2 = .error e) :
    (afterLines name breaks finish start run).result = .error e := by
  obtain ⟨deltas, outcome⟩ := run
  cases raised
  rfl

theorem afterLines_broken {change : σ → σ} {b : Break} (ended : run.2 = .ok (change, false))
    (broken : breaks = some b) :
    (afterLines name breaks finish start run).result =
      .error (brokenOff name "stream timed out" b) := by
  obtain ⟨deltas, outcome⟩ := run
  cases ended
  cases broken
  rfl

theorem afterLines_finished {change : σ → σ} {stopped : Bool}
    (ended : run.2 = .ok (change, stopped)) (closed : stopped = true ∨ breaks = none) :
    (afterLines name breaks finish start run).result = finish run.1 (change start) := by
  obtain ⟨deltas, outcome⟩ := run
  cases ended
  rcases closed with rfl | rfl
  · rfl
  · cases stopped <;> rfl

theorem unguarded_ok {α : Type} {r : Except Fault α} {a : α} :
    unguarded r = .ok a ↔ r = .ok a := by
  cases r <;> simp [unguarded]

theorem unguarded_provider {α : Type} {r : Except Fault α} {err : ProviderError} :
    unguarded r ≠ .error (.provider err) := by
  cases r <;> simp [unguarded]

end

end OpsAssist.Wire

/-! ## Streams of an OpenAI-compatible server -/

namespace OpsAssist.OpenAI

open Theory Dynamic Wire
open Anthropic (ChatParams)

/-- The choice is read. -/
def readsChoice : Value → Bool
  | .obj members => readable (memberOf "delta" members)
  | _ => false

def choicesIn : Value → List Value
  | .obj members =>
      match memberOf "choices" members with
      | .arr choices => choices
      | _ => []
  | _ => []

/-- So are all the choices of the chunk. -/
def readsChunk : Value → Bool
  | .obj members =>
      match memberOf "choices" members with
      | .arr choices => choices.all readsChoice
      | v => !truthy v
  | _ => false

def choiceText : Value → List Value
  | .obj members => said (contentIn (memberOf "delta" members))
  | _ => []

/-- The texts of the choices, up to one that is not read. -/
def fragments (chunk : Value) : List Value :=
  (upTo (fun c => !readsChoice c) (choicesIn chunk)).flatMap choiceText

/-- The choice is the last of its stream. -/
def Finishes (choice : Value) : Prop :=
  ∃ members, choice = .obj members ∧ memberOf "finish_reason" members ≠ .null

section

variable (pl : Platform)

/-- The line marks the end, is no JSON, or carries a chunk that is not read. -/
def hangsUp (line : String) : Bool :=
  match dataOf line with
  | none => false
  | some data =>
      data == "[DONE]" ||
        match pl.loads data with
        | .error _ => true
        | .ok chunk => !readsChunk chunk

def lineFragments (line : String) : List Value :=
  match chunkOf pl line with
  | some (.ok chunk) => fragments chunk
  | _ => []

/-- `data: [DONE]`, or a chunk with a choice that has a finish reason. -/
def Signals (line : String) : Prop :=
  dataOf line = some "[DONE]" ∨
    ∃ chunk, chunkOf pl line = some (.ok chunk) ∧ ∃ c ∈ choicesIn chunk, Finishes c

/-- A chunk with an error. -/
def Reports (line : String) : Prop :=
  ∃ members, chunkOf pl line = some (.ok (.obj members)) ∧ memberOf "error" members ≠ .null

def format : Format where
  ends := hangsUp pl
  fragments := lineFragments pl
  Signals := Signals pl
  Reports := Reports pl

/-- A line that is no JSON ends the reading, or the connection breaks off after the last line, or
else the lines do not simply run out and no chunk that is read has an error. -/
def StreamCounts (r : StreamResponse) : Prop :=
  (∃ line, r.lines.find? (hangsUp pl) = some line ∧ chunkOf pl line = some (.error .decode)) ∨
    ((∀ line ∈ r.lines, hangsUp pl line = false) ∧ r.breaks ≠ none) ∨
      ¬(format pl).Stops (.response r) ∧ ¬(format pl).Reported (.response r)

end

section

variable {pl : Platform} {p : OpenAICompatibleProvider}

theorem choice_cases (choice : Value) :
    (readsChoice choice = true ∧ ∃ change, choiceReading choice = .next (choiceText choice) change) ∨
      (readsChoice choice = false ∧ choiceText choice = [] ∧
        ∃ f, choiceReading choice = .raise [] f) := by
  unfold readsChoice choiceText choiceReading
  cases choice with
  | obj members =>
      simp only [ofChoice_obj]
      cases reads : readable (memberOf "delta" members) with
      | true => exact .inl ⟨rfl, _, rfl⟩
      | false => exact .inr ⟨rfl, by rw [contentIn_unread reads]; rfl, _, rfl⟩
  | _ => exact .inr ⟨rfl, rfl, _, rfl⟩

theorem choice_goes (choice : Value) :
    (choiceReading choice).goesOn = !!readsChoice choice := by
  rcases choice_cases choice with ⟨on, change, reading⟩ | ⟨off, -, f, reading⟩
  · rw [on, reading]; rfl
  · rw [off, reading]; rfl

theorem choice_out (choice : Value) : (choiceReading choice).out = choiceText choice := by
  rcases choice_cases choice with ⟨-, change, reading⟩ | ⟨-, nothing, f, reading⟩
  · rw [reading]; rfl
  · rw [nothing, reading]; rfl

/-- Choices one after another are passed, or one of them raises. -/
theorem choices_cases (choices : List Value) :
    (readAll choiceReading choices).1 =
        (upTo (fun c => !readsChoice c) choices).flatMap choiceText ∧
      ((choices.all readsChoice = true ∧ ∃ change,
          (readAll choiceReading choices).2 = .ok (change, false)) ∨
        choices.all readsChoice = false ∧ ∃ f, (readAll choiceReading choices).2 = .error f) := by
  constructor
  · rw [readAll_out choice_goes]
    simp only [choice_out]
  · cases found : choices.find? fun c => !readsChoice c with
    | none =>
        have whole : ∀ c ∈ choices, readsChoice c = true := fun c mem => by
          simpa using List.find?_eq_none.mp found c mem
        exact .inl ⟨List.all_eq_true.mpr whole, _,
          readAll_open choice_goes fun c mem => by simp [whole c mem]⟩
    | some c =>
        have off : readsChoice c = false := by simpa using List.find?_some found
        rcases choice_cases c with ⟨on, -⟩ | ⟨-, -, f, raises⟩
        · cases on.symm.trans off
        · refine .inr ⟨?_, f, readAll_raised choice_goes found raises⟩
          exact List.all_eq_false.mpr ⟨c, List.mem_of_find?_eq_some found, by simp [off]⟩

theorem chunkReading_items {members : List (String × Value)} {choices : List Value}
    (read : items (orElse (memberOf "choices" members) (.arr [])) = .ok choices) :
    chunkReading (.obj members) =
      match readAll choiceReading choices with
      | (out, .error f) => .raise out f
      | (out, .ok (change, _)) => .next out fun s =>
          { usageRaw := orElse (memberOf "usage" members) s.usageRaw
            finishReason := change s.finishReason } := by
  have whole : ofChunk (.obj members) = .ok (memberOf "usage" members, choices) := by
    simp only [ofChunk, getKey_obj, bind, Except.bind, read]
    rfl
  unfold chunkReading
  generalize ofChunk (.obj members) = read at whole ⊢
  subst whole
  rfl

/-- What is iterated over, if it is no list of choices, has none that is read. -/
theorem items_unread {v : Value} (there : truthy v = true) (other : ∀ vs, v ≠ .arr vs) :
    (∃ f, items v = .error f) ∨ ∃ s rest, items v = .ok (.str s :: rest) := by
  cases v with
  | arr vs => exact absurd rfl (other vs)
  | obj members =>
      cases members with
      | nil => simp [truthy] at there
      | cons m members => exact .inr ⟨_, _, rfl⟩
  | str s =>
      cases spelt : s.toList with
      | nil => simp [truthy, String.toList_eq_nil_iff.mp spelt] at there
      | cons c rest => exact .inr ⟨_, _, by simp only [items, spelt, List.map_cons]; rfl⟩
  | _ => exact .inl ⟨_, rfl⟩

/-- A chunk whose choices are a list, or nothing. -/
theorem chunk_listed {members : List (String × Value)} {choices : List Value}
    (read : items (orElse (memberOf "choices" members) (.arr [])) = .ok choices)
    (listed : choicesIn (.obj members) = choices)
    (reads : readsChunk (.obj members) = choices.all readsChoice) :
    (chunkReading (.obj members)).out = fragments (.obj members) ∧
      ((readsChunk (.obj members) = true ∧
          ∃ out change, chunkReading (.obj members) = .next out change) ∨
        readsChunk (.obj members) = false ∧
          ∃ out f, chunkReading (.obj members) = .raise out f) := by
  obtain ⟨texts, ending⟩ := choices_cases choices
  rw [chunkReading_items read, fragments, listed, reads, ← texts]
  generalize readAll choiceReading choices = run at ending ⊢
  obtain ⟨out, outcome⟩ := run
  rcases ending with ⟨all, change, ended⟩ | ⟨unread, f, raised⟩
  · cases ended
    exact ⟨rfl, .inl ⟨all, _, _, rfl⟩⟩
  · cases raised
    exact ⟨rfl, .inr ⟨unread, _, _, rfl⟩⟩

/-- A chunk whose choices are something else. -/
theorem chunk_unlisted {members : List (String × Value)}
    (there : truthy (memberOf "choices" members) = true)
    (other : ∀ vs, memberOf "choices" members ≠ .arr vs) :
    fragments (.obj members) = [] ∧ readsChunk (.obj members) = false ∧
      ∃ f, chunkReading (.obj members) = .raise [] f := by
  have nothing : choicesIn (.obj members) = [] ∧ readsChunk (.obj members) = false := by
    dsimp only [choicesIn, readsChunk]
    cases found : memberOf "choices" members with
    | arr vs => exact absurd found (other vs)
    | _ => simp_all
  refine ⟨by rw [fragments, nothing.1]; rfl, nothing.2, ?_⟩
  have same : orElse (memberOf "choices" members) (.arr []) = memberOf "choices" members :=
    if_pos there
  rcases items_unread there other with ⟨f, raised⟩ | ⟨s, rest, read⟩
  · refine ⟨f, ?_⟩
    have whole : ofChunk (.obj members) = .error f := by
      simp only [ofChunk, getKey_obj, bind, Except.bind, same, raised]
    rw [chunkReading, whole]
  · exact ⟨.attribute, by rw [chunkReading_items (same.symm ▸ read)]; rfl⟩

/-- **What a chunk does**: it hands on its texts, and raises if it is not read. -/
theorem chunk_cases (chunk : Value) :
    (chunkReading chunk).out = fragments chunk ∧
      ((readsChunk chunk = true ∧ ∃ out change, chunkReading chunk = .next out change) ∨
        readsChunk chunk = false ∧ ∃ out f, chunkReading chunk = .raise out f) := by
  cases chunk with
  | obj members =>
      by_cases there : truthy (memberOf "choices" members) = true
      · by_cases list : ∃ vs, memberOf "choices" members = .arr vs
        · obtain ⟨vs, found⟩ := list
          refine @chunk_listed members vs ?_ ?_ ?_
          · rw [orElse, if_pos there, found]; rfl
          · simp only [choicesIn, found]
          · simp only [readsChunk, found]
        · obtain ⟨nothing, unread, f, raises⟩ :=
            chunk_unlisted there fun vs found => list ⟨vs, found⟩
          exact ⟨by rw [raises, nothing]; rfl, .inr ⟨unread, _, _, raises⟩⟩
      · refine @chunk_listed members [] (by rw [orElse, if_neg there]; rfl) ?_ ?_
        · dsimp only [choicesIn]
          cases found : memberOf "choices" members with
          | arr vs => simpa [found, truthy] using there
          | _ => rfl
        · dsimp only [readsChunk]
          cases found : memberOf "choices" members with
          | arr vs => simp_all [truthy]
          | _ => simp_all
  | _ => exact ⟨rfl, .inr ⟨rfl, _, _, rfl⟩⟩

/-- **What a line does**: it goes on, marks the end, is no JSON, or carries a chunk that raises. -/
theorem line_endings (line : String) :
    (lineReading pl p line).out = lineFragments pl line ∧
      ((hangsUp pl line = false ∧ ∃ out change, lineReading pl p line = .next out change) ∨
      (hangsUp pl line = true ∧ dataOf line = some "[DONE]" ∧
        lineReading pl p line = .stop [] id) ∨
      (hangsUp pl line = true ∧ ∃ f, chunkOf pl line = some (.error f) ∧
        lineReading pl p line = .raise []
          (if f = .decode then responseError p.name "malformed stream chunk" else .fault f)) ∨
      (hangsUp pl line = true ∧ dataOf line ≠ some "[DONE]" ∧
        (∃ chunk, chunkOf pl line = some (.ok chunk)) ∧
        ∃ out f, lineReading pl p line = .raise out (.fault f))) := by
  unfold hangsUp lineFragments chunkOf
  cases carries : dataOf line with
  | none => exact ⟨by rw [lineReading, carries]; rfl, .inl ⟨rfl, _, _, by rw [lineReading, carries]⟩⟩
  | some data =>
      by_cases done : data = "[DONE]"
      · subst done
        rw [lineReading_done carries]
        exact ⟨rfl, .inr (.inl ⟨rfl, rfl, rfl⟩)⟩
      · rw [lineReading_data carries done]
        simp only [Option.bind_some, beq_iff_eq, done, Bool.or_eq_true]
        cases read : pl.loads data with
        | error f => exact ⟨rfl, .inr (.inr (.inl ⟨by simp, f, rfl, by simp [convert]⟩))⟩
        | ok chunk =>
            obtain ⟨texts, ending⟩ := chunk_cases chunk
            rcases ending with ⟨reads, out, change, reading⟩ | ⟨unread, out, f, reading⟩
            · rw [reading] at texts
              simp only [convert, reading]
              exact ⟨texts, .inl ⟨by simp [done, reads], _, _, rfl⟩⟩
            · rw [reading] at texts
              simp only [convert, reading]
              exact ⟨texts, .inr (.inr (.inr ⟨by simp [unread], by simpa using done, ⟨chunk, rfl⟩,
                _, _, rfl⟩))⟩

theorem line_hangsUp (line : String) : (lineReading pl p line).goesOn = !hangsUp pl line := by
  rcases (@line_endings pl p line).2 with ⟨on, out, change, reading⟩ | ⟨off, -, reading⟩ |
    ⟨off, f, -, reading⟩ | ⟨off, -, -, out, f, reading⟩
  · rw [on, reading]; rfl
  · rw [off, reading]; rfl
  · rw [off, reading]; rfl
  · rw [off, reading]; rfl

/-- What is made of a stream in the end raises no error of the hierarchy. -/
theorem finish_unrefused {messages : List ChatMessage} {produced : List Value} {s : StreamState}
    {err : ProviderError} : finish messages produced s ≠ .error (.provider err) := by
  unfold finish
  intro refused
  rcases bind_error_iff.mp refused with here | ⟨_, -, refused⟩
  · exact unguarded_provider here
  · rcases bind_error_iff.mp refused with here | ⟨_, -, refused⟩
    · exact unguarded_provider here
    · cases refused

section

variable {messages : List ChatMessage} {r : StreamResponse}

theorem readStream_fragments (low : r.status < 400) : (readStream pl p messages r).deltas =
    ((format pl).heard (.response r)).flatMap (format pl).fragments := by
  rw [readStream, afterLines_deltas, readAll_out line_hangsUp, Format.heard, if_pos low]
  exact congrArg (fun texts => (upTo (hangsUp pl) r.lines).flatMap texts)
    (funext fun line => (line_endings line).1)

theorem readStream_unrefused {change : StreamState → StreamState} {stopped : Bool}
    (ended : (readAll (lineReading pl p) r.lines).2 = .ok (change, stopped))
    (closed : stopped = true ∨ r.breaks = none) (err : ProviderError) :
    (readStream pl p messages r).result ≠ .error (.provider err) := by
  rw [readStream, afterLines_finished ended closed]
  exact finish_unrefused

theorem readStream_completes_iff (low : r.status < 400) :
    (format pl).Completes (.response r) (readStream pl p messages r) ↔ StreamCounts pl r := by
  have deltas := @readStream_fragments pl p messages r low
  unfold StreamCounts
  cases found : r.lines.find? (hangsUp pl) with
  | none =>
      have whole : ∀ line ∈ r.lines, hangsUp pl line = false := fun line mem =>
        Bool.eq_false_iff.mpr (List.find?_eq_none.mp found line mem)
      have ended := readAll_open (@line_hangsUp pl p) whole
      cases broken : r.breaks with
      | some b =>
          have result : (readStream pl p messages r).result =
              .error (brokenOff p.name "stream timed out" b) := afterLines_broken ended broken
          refine iff_of_true ?_ (.inr (.inl ⟨whole, by simp⟩))
          cases b <;> exact Format.completes_refused result deltas
      | none =>
          have unrefused : ∀ err, (readStream pl p messages r).result ≠ .error (.provider err) :=
            readStream_unrefused ended (.inr broken)
          simp only [reduceCtorEq, false_and, exists_false, ne_eq, not_true_eq_false, and_false,
            false_or]
          refine Format.completes_iff unrefused (fun _ goes => ?_) deltas
          by_contra silent
          exact goes ⟨low, whole, broken, silent⟩
  | some line =>
      have here : hangsUp pl line = true := List.find?_some found
      have broke : ¬((∀ line ∈ r.lines, hangsUp pl line = false) ∧ r.breaks ≠ none) := fun both =>
        absurd (both.1 line (List.mem_of_find?_eq_some found)) (by simp [here])
      simp only [Option.some.injEq, exists_eq_left', broke, false_or]
      rcases (@line_endings pl p line).2 with ⟨on, -⟩ | ⟨-, marked, stops⟩ |
        ⟨-, f, carries, raises⟩ | ⟨-, unmarked, ⟨chunk, carries⟩, out, f, raises⟩
      · cases here.symm.trans on
      · obtain ⟨passed, -, ended⟩ := readAll_stopped line_hangsUp found stops
        have nothing : chunkOf pl line = none := by simp [chunkOf, marked]
        have heard : line ∈ (format pl).heard (.response r) := by
          rw [Format.heard, if_pos low]
          exact mem_upTo_of_find found
        rw [nothing]
        simp only [reduceCtorEq, false_or]
        exact Format.completes_iff (readStream_unrefused ended (.inl rfl))
          (fun _ _ => ⟨line, heard, .inl marked⟩) deltas
      · have result : (readStream pl p messages r).result = .error
            (if f = .decode then responseError p.name "malformed stream chunk" else .fault f) :=
          afterLines_raised (readAll_raised line_hangsUp found raises)
        rw [carries]
        by_cases kind : f = .decode
        · subst kind
          exact iff_of_true (Format.completes_refused result deltas) (.inl rfl)
        · rw [if_neg kind] at result
          simp only [Option.some.injEq, Except.error.injEq, kind, false_or]
          exact Format.completes_of_fault result deltas
      · have result : (readStream pl p messages r).result = .error (.fault f) :=
          afterLines_raised (readAll_raised line_hangsUp found raises)
        rw [carries]
        simp only [Option.some.injEq, reduceCtorEq, false_or]
        exact Format.completes_of_fault result deltas

end

/-- **Which streams keep the promise.** -/
theorem stream_completes_iff {server : Peer} {model : String} {messages : List ChatMessage}
    {params : ChatParams} :
    (format pl).Completes
        (server.stream "/chat/completions" (chatPayload model messages params true))
        (streamChat pl p server model messages params) ↔
      OpenedFits (StreamCounts pl)
        (server.stream "/chat/completions" (chatPayload model messages params true)) :=
  Format.openStream_completes_iff fun _ low => readStream_completes_iff low

end

end OpsAssist.OpenAI

/-! ## Streams of Ollama -/

namespace OpsAssist.Ollama

open Theory Dynamic Wire
open Anthropic (ChatParams)

section

variable (pl : Platform)

/-- A chunk with `"done": true`. -/
def Signals (line : String) : Prop :=
  ∃ members, chunkOf pl line = some (.ok (.obj members)) ∧
    members.lookup "done" = some (.bool true)

/-- A chunk with an error. -/
def Reports (line : String) : Prop :=
  ∃ members, chunkOf pl line = some (.ok (.obj members)) ∧ memberOf "error" members ≠ .null

def format : Format where
  ends := ends pl
  fragments := lineFragments pl
  Signals := Signals pl
  Reports := Reports pl

/-- An error that ends the reading has a text; and a last chunk that does so is done by `true`
itself, or else a fragment is no text, or the usage of that chunk is not read. -/
def StreamCounts (r : StreamResponse) : Prop :=
  ∀ line, r.lines.find? (ends pl) = some line →
    (∀ members e, chunkOf pl line = some (.ok (.obj members)) → members.lookup "error" = some e →
      e ≠ .null → ∃ s, pl.str e = .ok s) ∧
    ∀ chunk, chunkOf pl line = some (.ok chunk) → IsLast chunk →
      Signals pl line ∨ ¬AllTexts ((upTo (ends pl) r.lines).flatMap (lineFragments pl)) ∨
        ¬UsageFits chunk

end

section

variable {pl : Platform} {p : OllamaProvider} {messages : List ChatMessage} {r : StreamResponse}

theorem signals_ends {line : String} (here : Signals pl line) : ends pl line = true := by
  obtain ⟨members, carries, done⟩ := here
  simp [ends, carries, goes, memberOf, done, truthy]

theorem reports_ends {line : String} (here : Reports pl line) : ends pl line = true := by
  obtain ⟨members, carries, told⟩ := here
  cases there : members.lookup "error" with
  | none => exact absurd (by rw [memberOf, there]; rfl) told
  | some e => simp only [ends, carries, goes, there]; rfl

theorem readStream_fragments (low : r.status < 400) : (readStream pl p messages r).deltas =
    ((format pl).heard (.response r)).flatMap (format pl).fragments := by
  rw [readStream, afterLines_deltas, readAll_out line_goes, Format.heard, if_pos low]
  exact congrArg (fun texts => (upTo (ends pl) r.lines).flatMap texts) (funext line_out)

/-- What is made of a last chunk is an end of the stream just when the fragments are texts and its
usage is read. -/
theorem finish_ok_iff {produced : List Value} {chunk : Value} (last : IsLast chunk) :
    (∃ e, finish p messages produced chunk = .ok e) ↔ AllTexts produced ∧ UsageFits chunk := by
  obtain ⟨members, rfl, -, -, done⟩ := last
  have some_member : truthy (.obj members) = true := by
    cases members with
    | nil => cases done
    | cons m members => simp [truthy]
  unfold finish
  rw [if_pos some_member]
  simp only [bind_ok_iff, unguarded_ok, getKey_obj]
  constructor
  · rintro ⟨e, completion, joins, u, read, -⟩
    obtain ⟨texts, s, rfl⟩ := joined_ok joins
    exact ⟨texts, usage_text.mp ⟨u, read⟩⟩
  · rintro ⟨texts, fits⟩
    obtain ⟨s, joins⟩ := joined_texts texts
    obtain ⟨u, read⟩ := usage_text.mpr fits
    exact ⟨_, _, joins, u, read, _, rfl, rfl⟩

/-- Only the line that ends the reading may report an error. -/
theorem silent_of_last {line : String} (low : r.status < 400)
    (found : r.lines.find? (ends pl) = some line) (silent : ¬Reports pl line) :
    ¬(format pl).Reported (.response r) := fun reported => by
  obtain ⟨line', found', here⟩ := (Format.heard_iff low fun _ => reports_ends).mp reported
  cases found.symm.trans found'
  exact silent here

/-- The same of the signal. -/
theorem signalled_iff {line : String} (low : r.status < 400)
    (found : r.lines.find? (ends pl) = some line) :
    (format pl).Signalled (.response r) ↔ Signals pl line := by
  refine (Format.heard_iff low fun _ => signals_ends).trans ?_
  constructor
  · rintro ⟨line', found', here⟩
    cases found.symm.trans found'
    exact here
  · exact fun here => ⟨line, found, here⟩

/-- A fault that ends the reading breaks no promise where no error was reported. -/
theorem fault_completes {line : String} {out : List Value} {f : Fault} (low : r.status < 400)
    (found : r.lines.find? (ends pl) = some line)
    (raises : lineReading pl p line = .raise out (.fault f)) (silent : ¬Reports pl line) :
    (format pl).Completes (.response r) (readStream pl p messages r) := by
  have result : (readStream pl p messages r).result = .error (.fault f) :=
    afterLines_raised (readAll_raised line_goes found raises)
  exact (Format.completes_of_fault result (readStream_fragments low)).mpr
    ⟨Format.not_stops found, silent_of_last low found silent⟩

/-- So does an error of the hierarchy. -/
theorem refusal_completes {line : String} {out : List Value} {err : ProviderError}
    (low : r.status < 400) (found : r.lines.find? (ends pl) = some line)
    (raises : lineReading pl p line = .raise out (.provider err)) :
    (format pl).Completes (.response r) (readStream pl p messages r) := by
  have result : (readStream pl p messages r).result = .error (.provider err) :=
    afterLines_raised (readAll_raised line_goes found raises)
  exact Format.completes_refused result (readStream_fragments low)

/-- A fault where an error was reported breaks it. -/
theorem fault_breaks {line : String} {out : List Value} {f : Fault} (low : r.status < 400)
    (found : r.lines.find? (ends pl) = some line)
    (raises : lineReading pl p line = .raise out (.fault f)) (told : Reports pl line) :
    ¬(format pl).Completes (.response r) (readStream pl p messages r) := fun kept => by
  have result : (readStream pl p messages r).result = .error (.fault f) :=
    afterLines_raised (readAll_raised line_goes found raises)
  have reported : (format pl).Reported (.response r) :=
    (Format.heard_iff low fun _ => reports_ends).mpr ⟨line, found, told⟩
  obtain ⟨err, same⟩ := kept.raised (.inr reported)
  cases result.symm.trans same

/-- **An exception that ends the reading** is of the hierarchy where an error was reported, unless
the error has no text. -/
theorem raising_completes_iff {line : String} {e : Escaped} (low : r.status < 400)
    (found : r.lines.find? (ends pl) = some line) (raises : lineReading pl p line = .raise [] e) :
    (format pl).Completes (.response r) (readStream pl p messages r) ↔
      ∀ members e, chunkOf pl line = some (.ok (.obj members)) →
        members.lookup "error" = some e → e ≠ .null → ∃ s, pl.str e = .ok s := by
  cases e with
  | provider err =>
      refine iff_of_true (refusal_completes low found raises) fun members e carries there _ => ?_
      rw [lineReading_eq, carries] at raises
      obtain ⟨reading, provider⟩ := @chunkReading_error pl p _ _ there
      have same : reported pl p (.obj members) = .provider err := by
        simpa using reading.symm.trans raises
      exact provider.mp (same ▸ trivial)
  | fault f =>
      by_cases told : Reports pl line
      · refine iff_of_false (fault_breaks low found raises told) fun texts => ?_
        obtain ⟨members, carries, some_error⟩ := told
        cases there : members.lookup "error" with
        | none => exact some_error (by rw [memberOf, there]; rfl)
        | some e =>
            have value : e ≠ .null := fun null => some_error (by rw [memberOf, there, null]; rfl)
            rw [lineReading_eq, carries] at raises
            obtain ⟨reading, provider⟩ := @chunkReading_error pl p _ _ there
            have same : reported pl p (.obj members) = .fault f := by
              simpa using reading.symm.trans raises
            exact (same ▸ provider.mpr (texts members e carries there value) : IsProvider (.fault f))
      · refine iff_of_true (fault_completes low found raises told) fun members e carries there value =>
          absurd ⟨members, carries, ?_⟩ told
        rw [memberOf, there]
        exact value

/-- Lines that run out end in an error of the hierarchy. -/
theorem open_completes (low : r.status < 400) (whole : ∀ line ∈ r.lines, ends pl line = false) :
    (format pl).Completes (.response r) (readStream pl p messages r) := by
  have deltas := @readStream_fragments pl p messages r low
  have ended := readAll_open (@line_goes pl p) whole
  cases broken : r.breaks with
  | some b =>
      have result : (readStream pl p messages r).result =
          .error (brokenOff p.name "stream timed out" b) := afterLines_broken ended broken
      cases b <;> exact Format.completes_refused result deltas
  | none =>
      have result : (readStream pl p messages r).result =
          finish p messages (readAll (lineReading pl p) r.lines).1
            (changes (lineReading pl p) r.lines (.obj [])) :=
        afterLines_finished ended (.inr broken)
      rw [changes_final whole] at result
      exact Format.completes_refused result deltas

/-- A last chunk needs the signal itself, if the stream ends well. -/
theorem last_completes_iff {line : String} {chunk : Value} (low : r.status < 400)
    (found : r.lines.find? (ends pl) = some line) (carries : chunkOf pl line = some (.ok chunk))
    (last : IsLast chunk)
    (stops : lineReading pl p line = .stop (lineFragments pl line) fun _ => chunk) :
    (format pl).Completes (.response r) (readStream pl p messages r) ↔
      Signals pl line ∨ ¬AllTexts ((upTo (ends pl) r.lines).flatMap (lineFragments pl)) ∨
        ¬UsageFits chunk := by
  have deltas := @readStream_fragments pl p messages r low
  have quiet : ¬Reports pl line := by
    rintro ⟨members, carries', told⟩
    cases carries.symm.trans carries'
    obtain ⟨members', same, silent, -⟩ := last
    cases same
    exact told (by rw [memberOf, silent]; rfl)
  obtain ⟨passed, -, ended⟩ := readAll_stopped line_goes found stops
  have result : (readStream pl p messages r).result =
      finish p messages (readAll (lineReading pl p) r.lines).1 chunk :=
    afterLines_finished ended (.inl rfl)
  have texts : (readAll (lineReading pl p) r.lines).1 =
      (upTo (ends pl) r.lines).flatMap (lineFragments pl) := by
    rw [readAll_out line_goes]
    exact congrArg (fun texts => (upTo (ends pl) r.lines).flatMap texts) (funext line_out)
  rw [Format.completes_quiet (Format.not_stops found) (silent_of_last low found quiet) deltas,
    result, finish_ok_iff last, texts, signalled_iff low found]
  tauto

theorem readStream_completes_iff (low : r.status < 400) :
    (format pl).Completes (.response r) (readStream pl p messages r) ↔ StreamCounts pl r := by
  unfold StreamCounts
  cases found : r.lines.find? (ends pl) with
  | none =>
      have whole : ∀ line ∈ r.lines, ends pl line = false := fun line mem =>
        Bool.eq_false_iff.mpr (List.find?_eq_none.mp found line mem)
      exact iff_of_true (open_completes low whole) nofun
  | some line =>
      simp only [Option.some.injEq, forall_eq']
      rcases @line_cases pl p line with ⟨on, -⟩ | ⟨-, other, -, e, raises⟩ |
        ⟨-, chunk, carries, last, stops⟩
      · cases on.symm.trans (List.find?_some found)
      · rw [and_iff_left fun chunk carries last => absurd last (other chunk carries)]
        exact raising_completes_iff low found raises
      · rw [last_completes_iff low found carries last stops]
        have quiet : ∀ members e, chunkOf pl line = some (.ok (.obj members)) →
            members.lookup "error" = some e → e ≠ .null → ∃ s, pl.str e = .ok s := by
          intro members e carries' told
          cases carries.symm.trans carries'
          obtain ⟨members', same, silent, -⟩ := last
          cases same
          cases silent.symm.trans told
        rw [and_iff_right quiet]
        refine ⟨fun counts chunk' carries' _ => ?_, fun counts => counts chunk carries last⟩
        cases carries.symm.trans carries'
        exact counts

/-- **Which streams keep the promise.** -/
theorem stream_completes_iff {server : Peer} {model : String} {params : ChatParams} :
    (format pl).Completes
        (server.stream "/api/chat" (chatPayload p model messages params true))
        (streamChat pl p server model messages params) ↔
      OpenedFits (StreamCounts pl)
        (server.stream "/api/chat" (chatPayload p model messages params true)) :=
  Format.openStream_completes_iff fun _ low => readStream_completes_iff low

end

end OpsAssist.Ollama

/-! ## Both adapters -/

namespace OpsAssist.Wire

open Theory Dynamic
open Anthropic (ChatParams)

/-- The format of an adapter's streams. -/
def Adapter.format (pl : Platform) : Adapter → Format
  | .openAI _ => OpenAI.format pl
  | .ollama _ => Ollama.format pl

def Adapter.StreamCounts (pl : Platform) : Adapter → StreamResponse → Prop
  | .openAI _ => OpenAI.StreamCounts pl
  | .ollama _ => Ollama.StreamCounts pl

/-- **Which responses end well only when they are complete.** -/
theorem streams_complete_iff (pl : Platform) (server : Peer) (adapter : Adapter) (model : String)
    (messages : List ChatMessage) (params : ChatParams) :
    (adapter.format pl).Completes (adapter.streamAnswer server model messages params)
        (adapter.streamChat pl server model messages params) ↔
      OpenedFits (adapter.StreamCounts pl)
        (adapter.streamAnswer server model messages params) := by
  cases adapter with
  | openAI p => exact OpenAI.stream_completes_iff
  | ollama p => exact Ollama.stream_completes_iff

/-! ## Pole -/

/-- A chunk with the beginning of an answer. -/
def cutData : String := "\x7b\"choices\":[\x7b\"delta\":\x7b\"content\":\"Hel\"\x7d\x7d]\x7d"

/-- The same, taken apart. -/
def cutChunk : Value :=
  .obj [("choices", .arr [.obj [("delta", .obj [("content", .str "Hel")])]])]

def cutPlatform : Platform where
  text := fun _ => ""
  json := fun _ => .error .decode
  loads := fun text => if text = cutData then .ok cutChunk else .error .decode
  str := fun _ => .error .recursion
  seconds := fun _ => none
  float := fun _ => none

/-- The response is closed after one line. -/
def cutServer : Peer where
  post := fun _ _ => .timeout
  stream := fun _ _ => .response { status := 200, lines := ["data: " ++ cutData] }

/-- Its only line goes on, and signals nothing. -/
theorem cut_line : OpenAI.hangsUp cutPlatform ("data: " ++ cutData) = false ∧
    ¬OpenAI.Signals cutPlatform ("data: " ++ cutData) := by
  have carries : OpenAI.dataOf ("data: " ++ cutData) = some cutData := by decide +kernel
  have goes : cutData ≠ "[DONE]" := by decide +kernel
  have read : cutPlatform.loads cutData = .ok cutChunk := by simp [cutPlatform]
  constructor
  · rw [OpenAI.hangsUp, carries]
    simp only [read, beq_eq_false_iff_ne.mpr goes, Bool.false_or]
    rfl
  · rintro (marked | ⟨chunk, there, c, mem, ms, same, reason⟩)
    · exact goes (Option.some.inj (carries.symm.trans marked))
    · rw [OpenAI.chunkOf, carries, Option.bind_some, if_neg goes, read] at there
      cases there
      cases List.mem_singleton.mp mem
      cases same
      exact reason rfl

/-- **A stream that is cut off succeeds**: the answer is closed behind the first words. -/
theorem cut_stream_succeeds :
    ¬((Adapter.openAI { name := "nim" }).format cutPlatform).Completes
      ((Adapter.openAI { name := "nim" }).streamAnswer cutServer "llama" [] {})
      ((Adapter.openAI { name := "nim" }).streamChat cutPlatform cutServer "llama" [] {}) := by
  intro kept
  obtain ⟨passed, silent⟩ := cut_line
  have counts : OpenAI.StreamCounts cutPlatform _ :=
    OpenAI.stream_completes_iff.mp kept (by decide)
  rcases counts with ⟨line, found, -⟩ | ⟨-, broken⟩ | ⟨goes, -⟩
  · simp [passed] at found
  · exact broken rfl
  · refine goes ⟨by decide, by simpa [OpenAI.format] using passed, rfl, ?_⟩
    rintro ⟨line, heard, here⟩
    rw [Format.heard, if_pos (by decide)] at heard
    have same : line = "data: " ++ cutData := by
      simpa [upTo, OpenAI.format, passed] using heard
    exact silent (same ▸ here)

end OpsAssist.Wire
