/-
# OpsAssist.Api.Recall -- what a conversation remembers

A turn loads the newest messages after the summary's pointer, adds its own, and may fold
older ones into the summary.  Three limits meet: how many messages a window holds, what they
may cost in tokens, and how many characters of a transcript the summariser is given.

`nothing_lost_iff`: over every run of turns, each complete message is in the window or was
handed to the summariser whole, and none is both in the window and summarised, exactly
when the messages after the pointer fit the window whenever a turn begins and no
transcript is cut.
`follows_run`: the turns of the chat routes are such turns.
Poles: `nothing_lost_iff_pole`, `eleven_greetings`.
-/
import OpsAssist.Api.Chat

namespace OpsAssist

set_option autoImplicit false

open Theory Traced

/-! ## Turns -/

/-- A conversation with the messages each summariser call was handed. -/
structure Recollection where
  conversation : Conversation
  messages : List Message := []
  nextSeq : Nat := 1
  handed : List (List Message) := []

/-- A turn, as far as the memory sees it. -/
structure Exchanged where
  question : Text
  /-- the assistant's message; a stream closed at once stores none -/
  answer : Option (Text × MessageStatus)
  /-- the summariser's reply, in a turn that ends with `update_summary` -/
  summary : Option String

/-- The lines that `update_summary` joins. -/
def transcript (rows : List Message) : Text :=
  join "\n" (rows.map fun r =>
    plain ((if r.fromUser then "user" else "assistant") ++ ": ") ++ r.content)

/-- The summariser is given the beginning of the transcript. -/
theorem summaryPrompt_transcript (older : List Message) :
    summaryPrompt older =
      [{ role := .system, content := plain SUMMARY_PROMPT },
        { role := .user, content := (transcript older).cut (firstChars 6000) }] := rfl

namespace Recollection

def addMessage (s : Recollection) (fromUser : Bool) (content : Text) (status : MessageStatus) :
    Recollection :=
  { s with
    messages := s.messages ++
      [{ seq := s.nextSeq, conversationId := s.conversation.id, fromUser, content, status }],
    nextSeq := s.nextSeq + 1 }

/-- The question and the answer of a turn are stored. -/
def stored (s : Recollection) (turn : Exchanged) : Recollection :=
  let asked := s.addMessage true turn.question .complete
  match turn.answer with
  | none => asked
  | some (text, status) => asked.addMessage false text status

/-- `update_summary`, its call having succeeded. -/
def updateSummary (s : Recollection) (reply : String) : Recollection :=
  let older := olderMessages s.conversation s.messages
  if older = [] then s
  else
    { s with
      conversation := foldSummary s.conversation older (written (summaryPrompt older) reply)
      handed := s.handed ++ [older] }

def step (s : Recollection) (turn : Exchanged) : Recollection :=
  match turn.summary with
  | none => s.stored turn
  | some reply => (s.stored turn).updateSummary reply

/-! ## What a turn finds -/

/-- The complete messages. -/
def rows (s : Recollection) : List Message := completeMessages s.messages s.conversation.id

/-- `summary_upto_seq or 0` -/
def pointer (s : Recollection) : Nat := s.conversation.summaryUptoSeq.getD 0

/-- The complete messages after the pointer, and the others. -/
def pending (s : Recollection) : List Message := s.rows.filter fun m => decide (s.pointer < m.seq)

def covered (s : Recollection) : List Message :=
  s.rows.filter fun m => !decide (s.pointer < m.seq)

/-- Without a summary to stand for them, the covered messages are read again. -/
def reopened (s : Recollection) : List Message :=
  if summarized s.conversation.summary then [] else s.covered

variable (settings : Settings)

/-- The rows of the window a turn loads. -/
def window (s : Recollection) : List Message :=
  windowRows s.conversation s.messages settings.historyMaxMessages settings.historyTokenBudget

/-- The whole text of a message stood in a transcript before it was cut. -/
def HandedWhole (s : Recollection) (m : Message) : Prop :=
  ∃ before after, before ++ m :: after ∈ s.handed ∧
    (transcript (before ++ [m])).text.length ≤ 6000

/-- **No message falls between the summary and the window.** -/
structure Conserved (s : Recollection) : Prop where
  held : ∀ m ∈ s.rows, m ∈ s.window settings ∨ s.HandedWhole m
  apart : ∀ m ∈ s.window settings, ∀ upto, s.conversation.summaryUptoSeq = some upto →
    upto < m.seq

/-- The messages after the pointer fit the window; beside a blank summary, the last message
before the pointer does not fit as well. -/
def FitsWindow (s : Recollection) : Prop :=
  s.pending.length ≤ settings.historyMaxMessages ∧
    tokens s.pending ≤ settings.historyTokenBudget ∧
    ∀ row, s.reopened.getLast? = some row → s.pending.length = settings.historyMaxMessages ∨
      settings.historyTokenBudget < tokens s.pending + estimateTokens row.content.text

/-- A turn that summarises hands over a transcript that is not cut. -/
def TranscriptWhole (s : Recollection) (turn : Exchanged) : Prop :=
  turn.summary.isSome = true →
    (transcript (olderMessages (s.stored turn).conversation (s.stored turn).messages)).text.length ≤
      6000

end Recollection

/-! ## Transcripts -/

/-- A transcript begins with those of the front of its messages. -/
theorem transcript_append (front back : List Message) :
    (transcript front).text.toList <+: (transcript (front ++ back)).text.toList := by
  cases back with
  | nil => rw [List.append_nil]
  | cons m after =>
      cases front with
      | nil => exact List.nil_prefix
      | cons r before =>
          have joined : (transcript (r :: before ++ m :: after)).text =
              (transcript (r :: before)).text ++ "\n" ++ (transcript (m :: after)).text := by
            simp only [transcript, join, List.map_append, List.map_map]
            exact String.intercalate_append_of_ne_nil (by simp) (by simp)
          rw [joined, String.append_assoc, String.toList_append]
          exact List.prefix_append _ _

theorem length_transcript_le (front back : List Message) :
    (transcript front).text.length ≤ (transcript (front ++ back)).text.length := by
  have shorter := (transcript_append front back).length_le
  rwa [String.length_toList, String.length_toList] at shorter

/-- A message ends the transcript that ends with it. -/
theorem transcript_ends (before : List Message) (m : Message) :
    m.content.text.toList <:+ (transcript (before ++ [m])).text.toList := by
  have line : m.content.text.toList <:+ (transcript [m]).text.toList := by
    have one : (transcript [m]).text =
        ((if m.fromUser then "user" else "assistant") ++ ": ") ++ m.content.text := by
      simp only [transcript, join, List.map_cons, List.map_nil, String.intercalate_singleton]
      rfl
    rw [one, String.toList_append]
    exact List.suffix_append _ _
  cases before with
  | nil => exact line
  | cons r more =>
      have joined : (transcript (r :: more ++ [m])).text =
          (transcript (r :: more)).text ++ "\n" ++ (transcript [m]).text := by
        simp only [transcript, join, List.map_append, List.map_map]
        exact String.intercalate_append_of_ne_nil (by simp) (by simp)
      rw [joined, String.toList_append]
      exact line.trans (List.suffix_append _ _)

namespace Recollection

variable {s : Recollection} {m : Message}

/-- What is handed over whole stands in what the summariser is given. -/
theorem HandedWhole.occurs (whole : s.HandedWhole m) :
    ∃ older ∈ s.handed, m ∈ older ∧
      m.content.text.toList <:+: (firstChars 6000 (transcript older).text).toList := by
  obtain ⟨before, after, handed, short⟩ := whole
  refine ⟨before ++ m :: after, handed, by simp, ?_⟩
  have cut := transcript_append (before ++ [m]) after
  rw [List.append_assoc, List.singleton_append] at cut
  have kept : (transcript (before ++ [m])).text.toList <+:
      (firstChars 6000 (transcript (before ++ m :: after)).text).toList := by
    rw [firstChars, String.toList_ofList, List.prefix_take_iff]
    exact ⟨cut, by rwa [String.length_toList]⟩
  exact (transcript_ends before m).isInfix.trans kept.isInfix

/-! ## The order of the messages -/

/-- The messages are the conversation's own, numbered in order, and those the pointer covers
are those the summariser was handed. -/
structure Ordered (s : Recollection) : Prop where
  sorted : s.messages.Pairwise fun a b => a.seq < b.seq
  numbered : ∀ m ∈ s.messages, 0 < m.seq ∧ m.seq < s.nextSeq
  own : ∀ m ∈ s.messages, m.conversationId = s.conversation.id
  pointed : s.pointer < s.nextSeq
  flatten_handed : s.handed.flatten = s.covered
  handed_nonempty : ∀ older ∈ s.handed, older ≠ []

/-- A list in order of a key is cut in two by a bound of the key. -/
theorem filter_append_filter {α : Type} (key : α → Nat) (bound : Nat) : ∀ l : List α,
    l.Pairwise (fun a b => key a < key b) →
    (l.filter fun a => !decide (bound < key a)) ++ (l.filter fun a => decide (bound < key a)) = l
  | [], _ => rfl
  | a :: rest, sorted => by
      obtain ⟨first, later⟩ := List.pairwise_cons.mp sorted
      by_cases above : bound < key a
      · -- everything behind it is above the bound as well
        have all : ∀ b ∈ a :: rest, bound < key b := by
          intro b mem
          rcases List.mem_cons.mp mem with rfl | behind
          · exact above
          · exact Nat.lt_trans above (first b behind)
        rw [List.filter_eq_nil_iff.mpr (fun b mem => by simp [all b mem]),
          List.filter_eq_self.mpr (fun b mem => by simp [all b mem]), List.nil_append]
      · rw [List.filter_cons_of_pos (by simp [above]), List.filter_cons_of_neg (by simp [above]),
          List.cons_append, filter_append_filter key bound rest later]

/-- The two parts of a list around a bound. -/
theorem filter_parts {α : Type} {key : α → Nat} {bound : Nat} {front back : List α}
    (below : ∀ a ∈ front, key a ≤ bound) (above : ∀ a ∈ back, bound < key a) :
    ((front ++ back).filter fun a => !decide (bound < key a)) = front ∧
      ((front ++ back).filter fun a => decide (bound < key a)) = back := by
  rw [List.filter_append, List.filter_append]
  constructor
  · rw [List.filter_eq_self.mpr (fun a mem => by simp [below a mem]),
      List.filter_eq_nil_iff.mpr (fun a mem => by simp [above a mem]), List.append_nil]
  · rw [List.filter_eq_nil_iff.mpr (fun a mem => by simp [below a mem]),
      List.filter_eq_self.mpr (fun a mem => by simp [above a mem]), List.nil_append]

theorem rows_eq (sorted : s.messages.Pairwise fun a b => a.seq < b.seq)
    (own : ∀ m ∈ s.messages, m.conversationId = s.conversation.id) :
    s.rows = s.messages.filter fun m => m.status == .complete := by
  have mine : (s.messages.filter fun m =>
      m.conversationId == s.conversation.id && m.status == .complete) =
        s.messages.filter fun m => m.status == .complete :=
    List.filter_congr fun m mem => by simp [own m mem]
  rw [rows, completeMessages, mine]
  exact ((sorted.filter _).imp Nat.le_of_lt).insertionSort_eq

theorem mem_pending : m ∈ s.pending ↔ m ∈ s.rows ∧ s.pointer < m.seq := by
  rw [pending, List.mem_filter, decide_eq_true_eq]

theorem mem_covered : m ∈ s.covered ↔ m ∈ s.rows ∧ m.seq ≤ s.pointer := by
  rw [covered, List.mem_filter, Bool.not_eq_true', decide_eq_false_iff_not, Nat.not_lt]

theorem mem_of_reopened (mem : m ∈ s.reopened) : m ∈ s.covered := by
  rw [reopened] at mem
  split at mem
  · cases mem
  · exact mem

namespace Ordered

variable (ordered : Ordered s)

include ordered

theorem sorted_rows : s.rows.Pairwise fun a b => a.seq < b.seq := by
  rw [rows_eq ordered.sorted ordered.own]
  exact ordered.sorted.filter _

theorem mem_messages (mem : m ∈ s.rows) : m ∈ s.messages := by
  rw [rows_eq ordered.sorted ordered.own] at mem
  exact List.mem_of_mem_filter mem

theorem covered_append_pending : s.covered ++ s.pending = s.rows :=
  filter_append_filter Message.seq s.pointer s.rows ordered.sorted_rows

theorem nodup_rows : s.rows.Nodup :=
  ordered.sorted_rows.imp fun less same => Nat.ne_of_lt less (congrArg Message.seq same)

/-- The window is taken from the pending messages, and from the covered ones when there is no
summary to stand for them. -/
theorem window_eq (settings : Settings) (enough : 0 < settings.historyMaxMessages)
    (budget : 0 < settings.historyTokenBudget) :
    s.window settings = newest settings.historyMaxMessages settings.historyTokenBudget
      (s.reopened ++ s.pending) := by
  have open_ : ¬ (settings.historyMaxMessages = 0 ∨ settings.historyTokenBudget = 0) := by omega
  rw [window, windowRows, if_neg open_]
  dsimp only
  congr 1
  by_cases summary : summarized s.conversation.summary = true
  · rw [if_pos summary, reopened, if_pos summary, List.nil_append, pending, rows]
    refine List.filter_congr fun m mem => ?_
    cases upto : s.conversation.summaryUptoSeq with
    | none =>
        have positive := (ordered.numbered m (ordered.mem_messages mem)).1
        simp [pointer, upto, positive]
    | some seq => simp [pointer, upto]
  · rw [if_neg summary, reopened, if_neg summary, ordered.covered_append_pending]
    exact List.filter_eq_self.mpr fun m _ => rfl

end Ordered

/-! ## Turns keep the order -/

/-- A new message is pending, if it is complete. -/
theorem Ordered.addMessage (ordered : Ordered s) (fromUser : Bool) (content : Text)
    (status : MessageStatus) : Ordered (s.addMessage fromUser content status) := by
  have sorted : (s.addMessage fromUser content status).messages.Pairwise
      fun a b => a.seq < b.seq := by
    refine List.pairwise_append.mpr ⟨ordered.sorted, List.pairwise_singleton _ _, ?_⟩
    intro a old b new
    rw [List.mem_singleton.mp new]
    exact (ordered.numbered a old).2
  have own : ∀ m ∈ (s.addMessage fromUser content status).messages,
      m.conversationId = s.conversation.id := by
    intro m mem
    rcases List.mem_append.mp mem with old | new
    · exact ordered.own m old
    · rw [List.mem_singleton.mp new]
  refine ⟨sorted, ?_, own, Nat.lt_succ_of_lt ordered.pointed, ?_, ordered.handed_nonempty⟩
  · intro m mem
    rcases List.mem_append.mp mem with old | new
    · exact ⟨(ordered.numbered m old).1, Nat.lt_succ_of_lt (ordered.numbered m old).2⟩
    · rw [List.mem_singleton.mp new]
      exact ⟨Nat.zero_lt_of_lt ordered.pointed, Nat.lt_succ_self _⟩
  · have later : ∀ new : Message, new.seq = s.nextSeq →
        (([new].filter fun m => m.status == .complete).filter
          fun m => !decide (s.pointer < m.seq)) = [] := by
      intro new numbered
      rw [List.filter_eq_nil_iff]
      intro m mem
      rw [List.mem_singleton.mp (List.mem_of_mem_filter mem), numbered]
      simp [ordered.pointed]
    rw [covered, rows_eq sorted own]
    show s.handed.flatten = ((s.messages ++ _).filter _).filter
      fun m => !decide (s.pointer < m.seq)
    rw [List.filter_append, List.filter_append, later _ rfl, List.append_nil,
      ← rows_eq ordered.sorted ordered.own]
    exact ordered.flatten_handed

theorem Ordered.stored (ordered : Ordered s) (turn : Exchanged) : Ordered (s.stored turn) := by
  rw [Recollection.stored]
  cases turn.answer with
  | none => exact ordered.addMessage _ _ _
  | some answer => exact (ordered.addMessage _ _ _).addMessage _ _ _

/-- What is summarised is the front of the pending messages. -/
theorem olderMessages_pending (s : Recollection) :
    olderMessages s.conversation s.messages =
      s.pending.take (s.pending.length - SUMMARY_TRIGGER_MESSAGES) := rfl

/-- The summary's pointer moves over what was handed to the summariser. -/
theorem Ordered.updateSummary (ordered : Ordered s) (reply : String) :
    Ordered (s.updateSummary reply) := by
  rw [Recollection.updateSummary]
  by_cases nothing : olderMessages s.conversation s.messages = []
  · rw [if_pos nothing]
    exact ordered
  · rw [if_neg nothing]
    generalize found : olderMessages s.conversation s.messages = older at nothing
    rw [olderMessages_pending] at found
    obtain ⟨front, last, shape⟩ : ∃ front last, older = front ++ [last] :=
      ⟨_, _, (List.dropLast_append_getLast nothing).symm⟩
    have cut : s.pending = older ++ s.pending.drop _ :=
      found ▸ (List.take_append_drop _ s.pending).symm
    generalize s.pending.drop _ = rest at cut
    have inPending : last ∈ s.pending := by
      rw [cut, shape]
      simp
    have inRows := (mem_pending.mp inPending).1
    have sorted : (older ++ rest).Pairwise fun a b => a.seq < b.seq := by
      rw [← cut]
      exact ordered.sorted_rows.filter _
    obtain ⟨inOlder, _, across⟩ := List.pairwise_append.mp sorted
    -- the new pointer is the number of the last message handed over
    have pointer : (foldSummary s.conversation older
        (written (summaryPrompt older) reply)).summaryUptoSeq.getD 0 = last.seq := by
      rw [foldSummary, shape, List.getLast?_append]
      rfl
    have below : ∀ a ∈ s.covered ++ older, a.seq ≤ last.seq := by
      intro a mem
      rcases List.mem_append.mp mem with old | new
      · exact Nat.le_of_lt (Nat.lt_of_le_of_lt (mem_covered.mp old).2 (mem_pending.mp inPending).2)
      · rw [shape] at new inOlder
        rcases List.mem_append.mp new with before | self
        · exact Nat.le_of_lt ((List.pairwise_append.mp inOlder).2.2 a before last (by simp))
        · rw [List.mem_singleton.mp self]
    have above : ∀ b ∈ rest, last.seq < b.seq := fun b mem =>
      across last (by rw [shape]; simp) b mem
    refine ⟨ordered.sorted, ordered.numbered, ordered.own, ?_, ?_, ?_⟩
    · rw [Recollection.pointer, pointer]
      exact (ordered.numbered last (ordered.mem_messages inRows)).2
    · rw [List.flatten_append, ordered.flatten_handed, List.flatten_singleton]
      show s.covered ++ older = s.rows.filter fun m => !decide ((foldSummary s.conversation older
        (written (summaryPrompt older) reply)).summaryUptoSeq.getD 0 < m.seq)
      rw [pointer, ← ordered.covered_append_pending, cut, ← List.append_assoc]
      exact (filter_parts below above).1.symm
    · intro list mem
      rcases List.mem_append.mp mem with old | new
      · exact ordered.handed_nonempty list old
      · rw [List.mem_singleton.mp new]
        exact nothing

/-- **Every turn keeps the order.** -/
theorem Ordered.step (ordered : Ordered s) (turn : Exchanged) : Ordered (s.step turn) := by
  rw [Recollection.step]
  cases turn.summary with
  | none => exact ordered.stored turn
  | some reply => exact (ordered.stored turn).updateSummary reply

theorem Ordered.start {conversation : Conversation}
    (fresh : conversation.summaryUptoSeq = none) : Ordered { conversation } := by
  refine ⟨.nil, fun m mem => absurd mem List.not_mem_nil, fun m mem => absurd mem List.not_mem_nil,
    ?_, rfl, fun older mem => absurd mem List.not_mem_nil⟩
  rw [pointer, fresh]
  exact Nat.zero_lt_one

/-! ## What is conserved -/

/-- No transcript handed to the summariser was cut. -/
def Whole (s : Recollection) : Prop := ∀ older ∈ s.handed, (transcript older).text.length ≤ 6000

/-- Two ends of a list with the same members are one. -/
theorem suffix_unique {α : Type} {l a b : List α} (once : l.Nodup) (left : a <:+ l) (right : b <:+ l)
    (same : ∀ x, x ∈ a ↔ x ∈ b) : a = b := by
  have size : a.length = b.length :=
    ((List.perm_ext_iff_of_nodup (once.sublist left.sublist)
      (once.sublist right.sublist)).mpr same).length_eq
  rcases List.suffix_or_suffix_of_suffix left right with inside | inside
  · exact inside.eq_of_length size
  · exact (inside.eq_of_length size.symm).symm

variable {settings : Settings}

theorem handed_covered (ordered : Ordered s) {older : List Message} (handed : older ∈ s.handed)
    (mem : m ∈ older) : m ∈ s.covered := by
  rw [← ordered.flatten_handed]
  exact List.mem_flatten.mpr ⟨older, handed, mem⟩

theorem not_handed_of_pending (ordered : Ordered s) (mem : m ∈ s.pending) : ¬ s.HandedWhole m := by
  rintro ⟨before, after, handed, _⟩
  have old := (mem_covered.mp (handed_covered ordered handed
    (List.mem_append_right before List.mem_cons_self))).2
  have new := (mem_pending.mp mem).2
  omega

/-- A message that ends what was handed over was handed over whole only if all was. -/
theorem whole_of_last (ordered : Ordered s) {front : List Message}
    (handed : front ++ [m] ∈ s.handed) (whole : s.HandedWhole m) :
    (transcript (front ++ [m])).text.length ≤ 6000 := by
  obtain ⟨before, after, other, short⟩ := whole
  have once : s.handed.flatten.Nodup := by
    rw [ordered.flatten_handed]
    exact ordered.nodup_rows.filter _
  obtain ⟨each, disjoint⟩ := List.nodup_flatten.mp once
  have same : before ++ m :: after = front ++ [m] := by
    by_contra apart
    have : Std.Symm (List.Disjoint : List Message → List Message → Prop) :=
      ⟨fun _ _ => List.Disjoint.symm⟩
    exact disjoint.forall other handed apart (by simp : m ∈ before ++ m :: after) (by simp)
  have last : after = [] := by
    cases after with
    | nil => rfl
    | cons n more =>
        -- the last message would stand in the list twice
        have ends : (n :: more).getLast? = some m := by
          have all := congrArg List.getLast? same
          rwa [List.getLast?_concat, List.getLast?_append, List.getLast?_cons_cons,
            List.getLast?_cons, Option.some_or, ← List.getLast?_cons] at all
        have again := List.mem_of_getLast? ends
        have twice := (List.nodup_append.mp (each _ other)).2.1
        exact absurd again (List.nodup_cons.mp twice).1
  rw [last] at same
  rw [← same]
  exact short

/-- The window is what is pending exactly when that fits. -/
theorem window_pending_iff (ordered : Ordered s) (enough : 12 ≤ settings.historyMaxMessages)
    (budget : 0 < settings.historyTokenBudget) :
    s.window settings = s.pending ↔ s.FitsWindow settings := by
  rw [ordered.window_eq settings (by omega) budget, newest_eq_iff]
  rfl

/-- **A turn finds every message exactly when the pending ones fit the window and no transcript
was cut.** -/
theorem conserved_iff (ordered : Ordered s) (enough : 12 ≤ settings.historyMaxMessages)
    (budget : 0 < settings.historyTokenBudget) :
    s.Conserved settings ↔ s.FitsWindow settings ∧ s.Whole := by
  rw [← window_pending_iff ordered enough budget]
  constructor
  · intro conserved
    have inside : s.window settings <:+ s.reopened ++ s.pending := by
      rw [ordered.window_eq settings (by omega) budget]
      exact newest_suffix _ _ _
    have once : (s.reopened ++ s.pending).Nodup := by
      rw [reopened]
      split
      · exact ordered.nodup_rows.filter _
      · rw [ordered.covered_append_pending]
        exact ordered.nodup_rows
    have same : s.window settings = s.pending := by
      refine suffix_unique once inside (List.suffix_append _ _) fun m => ⟨fun mem => ?_, fun mem => ?_⟩
      · rcases List.mem_append.mp (inside.subset mem) with again | waiting
        · -- a covered message in the window is both in it and summarised
          obtain ⟨inRows, below⟩ := mem_covered.mp (mem_of_reopened again)
          cases upto : s.conversation.summaryUptoSeq with
          | none =>
              have positive := (ordered.numbered m (ordered.mem_messages inRows)).1
              rw [pointer, upto, Option.getD_none] at below
              omega
          | some seq =>
              have above := conserved.apart m mem seq upto
              rw [pointer, upto, Option.getD_some] at below
              omega
        · exact waiting
      · exact (conserved.held m (mem_pending.mp mem).1).resolve_right
          (not_handed_of_pending ordered mem)
    refine ⟨same, fun older handed => ?_⟩
    have shape := (List.dropLast_append_getLast (ordered.handed_nonempty older handed)).symm
    generalize older.dropLast = front, older.getLast _ = last at shape
    rw [shape] at handed ⊢
    obtain ⟨inRows, below⟩ := mem_covered.mp (handed_covered ordered handed
      (List.mem_append_right front (List.mem_singleton_self last)))
    refine whole_of_last ordered handed ((conserved.held last inRows).resolve_left fun inWindow => ?_)
    rw [same] at inWindow
    have above := (mem_pending.mp inWindow).2
    omega
  · rintro ⟨same, whole⟩
    refine ⟨fun m mem => ?_, fun m mem upto stands => ?_⟩
    · rw [← ordered.covered_append_pending] at mem
      rcases List.mem_append.mp mem with old | waiting
      · rw [← ordered.flatten_handed] at old
        obtain ⟨older, handed, inOlder⟩ := List.mem_flatten.mp old
        obtain ⟨before, after, shape⟩ := List.append_of_mem inOlder
        refine .inr ⟨before, after, shape ▸ handed, ?_⟩
        have all := whole older handed
        have front := length_transcript_le (before ++ [m]) after
        rw [List.append_assoc, List.singleton_append, ← shape] at front
        exact Nat.le_trans front all
      · exact .inl (same ▸ waiting)
    · rw [same] at mem
      have above := (mem_pending.mp mem).2
      rwa [pointer, stands] at above

/-- A turn cuts nothing exactly when its own transcript is whole. -/
theorem whole_step (s : Recollection) (turn : Exchanged) :
    (s.step turn).Whole ↔ s.Whole ∧ s.TranscriptWhole turn := by
  have same : (s.stored turn).handed = s.handed := by
    rw [stored]
    cases turn.answer <;> rfl
  rw [step, TranscriptWhole]
  cases turn.summary with
  | none =>
      rw [Whole, same]
      exact ⟨fun whole => ⟨whole, nofun⟩, And.left⟩
  | some reply =>
      dsimp only [Option.isSome_some]
      rw [updateSummary]
      by_cases nothing : olderMessages (s.stored turn).conversation (s.stored turn).messages = []
      · rw [if_pos nothing, Whole, same, nothing]
        exact ⟨fun whole => ⟨whole, fun _ => Nat.zero_le _⟩, And.left⟩
      · rw [if_neg nothing]
        show (∀ older ∈ (s.stored turn).handed ++ [_], _) ↔ _
        rw [same]
        constructor
        · intro whole
          exact ⟨fun older mem => whole older (List.mem_append_left _ mem),
            fun _ => whole _ (by simp)⟩
        · rintro ⟨before, now⟩ older mem
          rcases List.mem_append.mp mem with old | new
          · exact before older old
          · rw [List.mem_singleton.mp new]
            exact now rfl

/-- **No turn falls between the summary and the window, over every run, exactly when the pending
messages fit whenever a turn begins and no transcript is cut.** -/
theorem nothing_lost_iff (settings : Settings) (enough : 12 ≤ settings.historyMaxMessages)
    (budget : 0 < settings.historyTokenBudget) {conversation : Conversation}
    (fresh : conversation.summaryUptoSeq = none) {turns : List Exchanged} {s : Recollection}
    (run : Run (StepOf step) { conversation } turns s) :
    (∀ front back mid, turns = front ++ back → Run (StepOf step) { conversation } front mid →
        mid.Conserved settings) ↔
      Run (Guarded (fun s turn => s.FitsWindow settings ∧ s.TranscriptWhole turn) (StepOf step))
        { conversation } turns s ∧ s.FitsWindow settings := by
  have start := Ordered.start fresh
  have whole : Whole { conversation } := fun older mem => absurd mem List.not_mem_nil
  have everywhere := @Run.everywhere_iff _ _ step Ordered (FitsWindow settings) Whole
    TranscriptWhole (fun _ turn ordered => ordered.step turn) (fun s turn _ => whole_step s turn)
    _ _ _ run start whole
  rw [← everywhere]
  have each : ∀ {front mid}, Run (StepOf step) { conversation } front mid → Ordered mid :=
    fun before => before.invariant (fun _ turn _ here ordered => here ▸ ordered.step turn) start
  constructor
  · intro all front back mid shape before
    exact (conserved_iff (each before) enough budget).mp (all front back mid shape before)
  · intro all front back mid shape before
    exact (conserved_iff (each before) enough budget).mpr (all front back mid shape before)

end Recollection

/-! ## The turns of the chat routes -/

/-- A dialogue and what its memory holds. -/
structure Follows (d : Dialogue) (s : Recollection) : Prop where
  id : d.conversation.id = s.conversation.id
  summary : d.conversation.summary = s.conversation.summary
  upto : d.conversation.summaryUptoSeq = s.conversation.summaryUptoSeq
  messages : d.messages = s.messages
  nextSeq : d.nextSeq = s.nextSeq

/-- A summariser call that meets this succeeds. -/
def Exchange.Answers (x : Exchange) : Prop :=
  ∀ messages, ∃ target reply, (gatewayChat false messages x).2 = some (target, reply)

/-- What the summariser of a turn would meet. -/
def Turn.summariser : Turn → Option Exchange
  | .chat _ _ (.knowledge turn) | .stream _ _ (.knowledge turn) => some turn.summariser
  | _ => none

variable {settings : Settings} {grounding : Grounding}

namespace Follows

variable {d : Dialogue} {s : Recollection}

/-- Both load the same memory. -/
theorem loads (follows : Follows d s) (maxMessages tokenBudget : Nat) :
    loadConversationMemory d.conversation d.messages maxMessages tokenBudget =
      loadConversationMemory s.conversation s.messages maxMessages tokenBudget := by
  unfold loadConversationMemory
  rw [follows.id, follows.summary, follows.upto, follows.messages]

theorem addMessage (follows : Follows d s) (fromUser : Bool) (content : Text)
    (status : MessageStatus) :
    Follows (d.addMessage fromUser content status) (s.addMessage fromUser content status) := by
  refine ⟨follows.id, follows.summary, follows.upto, ?_, congrArg Nat.succ follows.nextSeq⟩
  rw [Dialogue.addMessage, Recollection.addMessage, follows.messages, follows.nextSeq, follows.id]

/-- The rest of the conversation's row does not count. -/
theorem row (follows : Follows d s) {conversation : Conversation}
    (id : conversation.id = d.conversation.id)
    (summary : conversation.summary = d.conversation.summary)
    (upto : conversation.summaryUptoSeq = d.conversation.summaryUptoSeq) (sent : List Sent) :
    Follows { d with conversation, sent } s :=
  ⟨id.trans follows.id, summary.trans follows.summary, upto.trans follows.upto, follows.messages,
    follows.nextSeq⟩

theorem remember (follows : Follows d s) (prep : Prepared) (retrieval : RetrievalResult)
    (sent : List Sent) :
    Follows { d with conversation := rememberContext prep retrieval d.conversation, sent } s := by
  refine follows.row ?_ rememberContext_summary ?_ sent
  · rw [rememberContext]
    cases retrieval.maxClassification with
    | none => rfl
    | some c =>
        dsimp only
        split <;> rfl
  · rw [rememberContext]
    cases retrieval.maxClassification with
    | none => rfl
    | some c =>
        dsimp only
        split <;> rfl

theorem prepare (follows : Follows d s) (message : String) (model : Option String) :
    Follows (prepare settings d message model).2 (s.addMessage true (plain message) .complete) := by
  have switched : Follows { d with conversation :=
      if model.isSome then { d.conversation with modelId := model } else d.conversation } s := by
    refine follows.row ?_ ?_ ?_ d.sent <;> split <;> rfl
  exact switched.addMessage true (plain message) .complete

/-- A summary that succeeds is the memory's. -/
theorem summarize (follows : Follows d s) {x : Exchange} (answers : x.Answers) :
    ∃ reply, Follows (maybeSummarize x d) (s.updateSummary reply) := by
  have same : olderMessages d.conversation d.messages = olderMessages s.conversation s.messages := by
    unfold olderMessages
    rw [follows.id, follows.upto, follows.messages]
  obtain ⟨target, reply, answered⟩ :=
    answers (summaryPrompt (olderMessages s.conversation s.messages))
  refine ⟨reply, ?_⟩
  rw [maybeSummarize, Recollection.updateSummary, same]
  by_cases nothing : olderMessages s.conversation s.messages = []
  · rw [if_pos nothing, if_pos nothing]
    exact follows
  · simp only [if_neg nothing, answered]
    refine ⟨follows.id, ?_, rfl, follows.messages, follows.nextSeq⟩
    show (foldSummary d.conversation _ _).summary = (foldSummary s.conversation _ _).summary
    rw [foldSummary, foldSummary, follows.summary]

/-- The end of a turn whose question is stored: an answer, and a summary where it succeeds. -/
def Ends (s : Recollection) (d' : Dialogue) : Prop :=
  ∃ text status, Follows d' (s.addMessage false text status) ∨
    ∃ reply, Follows d' ((s.addMessage false text status).updateSummary reply)

theorem ends (follows : Follows d s) (text : Text) (status : MessageStatus) :
    Ends s (d.addMessage false text status) :=
  ⟨text, status, .inl (follows.addMessage false text status)⟩

theorem ends_summarized (follows : Follows d s) (text : Text) {x : Exchange}
    (answers : x.Answers) : Ends s (maybeSummarize x (d.addMessage false text)) :=
  ⟨text, .complete, .inr ((follows.addMessage false text .complete).summarize answers)⟩

theorem chatKnowledge (follows : Follows d s) (prep : Prepared) (turn : KnowledgeTurn)
    (answers : turn.summariser.Answers) :
    Ends s (chatKnowledge settings grounding prep turn d) := by
  unfold OpsAssist.chatKnowledge
  split
  · exact follows.ends _ _
  · dsimp only
    split
    · exact Follows.ends (follows.remember prep _ _) _ _
    · exact Follows.ends_summarized (follows.remember prep _ _) _ answers

theorem streamKnowledge (follows : Follows d s) (prep : Prepared) (turn : KnowledgeTurn)
    (answers : turn.summariser.Answers) :
    Ends s (streamKnowledge settings grounding prep turn d) := by
  unfold OpsAssist.streamKnowledge
  split
  · exact follows.ends _ _
  · dsimp only
    split
    · exact Follows.ends (follows.remember prep _ _) _ _
    · split
      · exact Follows.ends (follows.remember prep _ _) _ _
      · exact Follows.ends_summarized (follows.remember prep _ _) _ answers

/-- A turn of a route is a turn of the memory. -/
theorem answer (follows : Follows d s) (knowledge : Prepared → KnowledgeTurn → Dialogue → Dialogue)
    (message : String) (model : Option String) (route : TurnRoute)
    (ends_ : ∀ turn, route = .knowledge turn →
      Ends (s.addMessage true (plain message) .complete)
        (knowledge (OpsAssist.prepare settings d message model).1 turn
          (OpsAssist.prepare settings d message model).2)) :
    ∃ turn, Follows (d.answer settings knowledge message model route) (s.step turn) := by
  have started : Follows (OpsAssist.prepare settings d message model).2 _ :=
    follows.prepare message model
  have ended : Ends (s.addMessage true (plain message) .complete)
      (d.answer settings knowledge message model route) := by
    cases route with
    | fixed text => exact started.ends _ _
    | tool text => exact started.ends _ _
    | search chunks department => exact started.ends _ _
    | knowledge turn => exact ends_ turn rfl
  obtain ⟨text, status, silent | ⟨reply, summarised⟩⟩ := ended
  · exact ⟨{ question := plain message, answer := some (text, status), summary := none }, silent⟩
  · exact ⟨{ question := plain message, answer := some (text, status), summary := some reply },
      summarised⟩

theorem step (follows : Follows d s) (turn : Turn)
    (answers : ∀ x, turn.summariser = some x → x.Answers) :
    ∃ turns s', Run (StepOf Recollection.step) s turns s' ∧
      Follows (d.step settings grounding turn) s' := by
  cases turn with
  | chat message model route =>
      obtain ⟨turn, next⟩ := follows.answer (OpsAssist.chatKnowledge settings grounding) message
        model route fun turn same =>
          (follows.prepare message model).chatKnowledge _ turn (answers _ (by rw [same]; rfl))
      exact ⟨[turn], _, .single rfl, next⟩
  | stream message model route =>
      obtain ⟨turn, next⟩ := follows.answer (OpsAssist.streamKnowledge settings grounding) message
        model route fun turn same =>
          (follows.prepare message model).streamKnowledge _ turn (answers _ (by rw [same]; rfl))
      exact ⟨[turn], _, .single rfl, next⟩
  | switchModel model =>
      have switched : Follows { d with conversation := { d.conversation with modelId := model } } s := by
        refine follows.row ?_ ?_ ?_ d.sent <;> rfl
      exact ⟨[], s, .nil s, switched⟩

end Follows

/-- **The turns of the chat routes are turns of the memory**, when each summariser call succeeds. -/
theorem follows_run {d d' : Dialogue} {turns : List Turn} {s : Recollection} (follows : Follows d s)
    (run : Run (Guarded (fun _ turn => ∀ x, turn.summariser = some x → x.Answers)
      (StepOf (Dialogue.step settings grounding))) d turns d') :
    ∃ turns' s', Run (StepOf Recollection.step) s turns' s' ∧ Follows d' s' := by
  induction run generalizing s with
  | nil => exact ⟨[], s, .nil s, follows⟩
  | cons here _ ih =>
      obtain ⟨answers, rfl⟩ := here
      obtain ⟨front, mid, first, next⟩ := follows.step _ answers
      obtain ⟨back, s', second, last⟩ := ih next
      exact ⟨front ++ back, s', first.append second, last⟩

/-! ## Poles -/

namespace Recollection

/-- A greeting and the reply to it; such a turn never summarises. -/
def greeting : Exchanged where
  question := plain "hi"
  answer := some (plain ("Hello Ada. I answer from the company documents you are allowed to read, " ++
    "always with a citation, and I can check server status or open a support ticket. A VPN " ++
    "profile needs a separate approval before it is created."), .complete)
  summary := none

def greetings (count : Nat) : Recollection :=
  (List.replicate count greeting).foldl step { conversation := poleConversation }

/-- Pole: after eleven greetings the window holds the newest twenty messages; the first two
are in no summary. -/
theorem eleven_greetings :
    Run (StepOf step) { conversation := poleConversation } (List.replicate 11 greeting)
      (greetings 11) ∧ ¬ (greetings 11).Conserved {} := by
  have run : Run (StepOf step) { conversation := poleConversation } (List.replicate 11 greeting)
      (greetings 11) := Run.stepOf_iff.mpr rfl
  refine ⟨run, fun conserved => ?_⟩
  have ordered : Ordered (greetings 11) :=
    run.invariant (fun _ turn _ here before => here ▸ before.step turn) (Ordered.start rfl)
  have inside : (greetings 11).rows ⊆ (greetings 11).window {} := by
    intro m mem
    refine (conserved.held m mem).resolve_right ?_
    rintro ⟨_, _, handed, _⟩
    cases handed
  have all : (greetings 11).rows.length = 22 := by decide +kernel
  have few : ((greetings 11).window {}).length ≤ 20 := by
    rw [ordered.window_eq {} (by decide) (by decide)]
    exact length_newest_le _ _ _
  have fits := (ordered.nodup_rows.subperm inside).length_le
  omega

/-- A question answered from the documents. -/
def answered : Exchanged where
  question := plain "How do I get a VPN?"
  answer := some (plain "Ask IT [1].", .complete)
  summary := some "The user wants a VPN."

/-- The seventh such turn folds the first two messages into a summary. -/
def answers (count : Nat) : Recollection :=
  (List.replicate count answered).foldl step { conversation := poleConversation }

theorem nothing_lost_iff_pole :
    (answers 7).conversation.summaryUptoSeq = some 2 ∧
      ((∀ front back mid, List.replicate 7 answered = front ++ back →
          Run (StepOf step) { conversation := poleConversation } front mid →
            mid.Conserved {}) ↔
        Run (Guarded (fun s turn => s.FitsWindow {} ∧ s.TranscriptWhole turn) (StepOf step))
            { conversation := poleConversation } (List.replicate 7 answered) (answers 7) ∧
          (answers 7).FitsWindow {}) :=
  ⟨by decide +kernel, nothing_lost_iff {} (by decide) (by decide) rfl (Run.stepOf_iff.mpr rfl)⟩

end Recollection

end OpsAssist
