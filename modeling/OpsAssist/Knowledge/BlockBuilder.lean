/-
# OpsAssist.Knowledge.BlockBuilder -- lines to blocks, under a heading path

A builder is fed the lines of a document page by page.  It keeps the lines of the current
paragraph and the path of open headings; in layout mode a paragraph is found to be a
heading only when it is flushed.

The main result is `outline_exact`: the path is the headings no later one closes
(`standing`), each block records it, and the blocks hold the words of the lines.  Poles:
`path_survives_pages` and `numbered_item`.
-/
import OpsAssist.Knowledge.Parsing
import OpsAssist.Theory.Pattern
import OpsAssist.Theory.Words

namespace OpsAssist

set_option autoImplicit false

open Theory Pattern

/-! ## Lines -/

inductive HeadingMode where
  | markdown
  | layout
deriving DecidableEq

/-- `text.strip()` -/
def stripText (text : String) : String := String.ofList (Text.strip text.toList)

def blanks : Pattern := .set Text.isSpace

/-- `$`: the end, or the last line feed before it. -/
def atEnd : Pattern := .seq (opt (char '\n')) (.look fun _ next => next.isNone)

/-- `_ITEM` -/
def ITEM : Pattern :=
  all [star blanks,
    oneOf [.seq (plus (.set isDecimal)) (.set fun c => c = '.' || c = ')'),
      .set fun c => c = '-' || c = '*' || c = '•'],
    plus blanks, .group 1 (star (.set (· ≠ '\n'))), atEnd]

/-- `_HEADING` -/
def HEADING : Pattern :=
  all [star blanks, .group 1 (.rep 1 (some 6) (.set (· = '#'))), plus blanks,
    .group 2 (star (.set (· ≠ '\n'))), atEnd]

/-- `[.:;,!?]` -/
def isClosing (c : Char) : Bool := ".:;,!?".toList.contains c

/-- `_NUMBERED_HEADING` -/
def NUMBERED_HEADING : Pattern :=
  all [.group 1 (.seq (plus (.set isDecimal)) (star (.seq (char '.') (plus (.set isDecimal))))),
    opt (char '.'), plus blanks, .set Char.isUpper, star (.set fun c => !isClosing c), atEnd]

/-- `[A-Za-z][A-Za-z'-]*` -/
def LATIN_WORD : Pattern :=
  .seq (.set Char.isAlpha) (star (.set fun c => c.isAlpha || c == Char.ofNat 39 || c == '-'))

/-- `_layout_heading_level`: 0 when the line is no heading. -/
def layoutHeadingLevel (line : String) : Nat :=
  let text := Text.strip line.toList
  if text = [] ∨ 70 < text.length ∨ text.getLast?.any isClosing then 0
  else
    match NUMBERED_HEADING.matchAt { rest := text } with
    | some m => (m.group 1).count '.' + 1
    | none =>
        let words := ((LATIN_WORD.findAll text).map Match.text).filter fun w => 3 < w.length
        if 1 ≤ (Text.words text).length ∧ (Text.words text).length ≤ 8 ∧ words ≠ [] ∧
            words.all fun w => w.head?.any Char.isUpper then 1
        else 0

/-! ## The builder -/

structure BlockBuilder where
  mode : HeadingMode
  blocks : List Block := []
  path : List (Nat × String) := []
  current : List String := []
  kind : BlockKind := .paragraph
  page : Option Nat := none

namespace BlockBuilder

def headings (b : BlockBuilder) : List String := b.path.map Prod.snd

/-- Pop the headings a heading of this level closes. -/
def unwind (level : Nat) (path : List (Nat × String)) : List (Nat × String) :=
  (path.reverse.dropWhile fun h => level ≤ h.1).reverse

/-- `_heading` -/
def heading (b : BlockBuilder) (level : Nat) (title : String) : BlockBuilder :=
  let path := unwind level b.path ++ [(level, title)]
  { b with
    path
    blocks := b.blocks ++
      [{ text := title, kind := .heading, page := b.page, headings := path.map Prod.snd, level }] }

/-- `_flush` -/
def flush (b : BlockBuilder) : BlockBuilder :=
  let text := stripText (" ".intercalate b.current)
  let flushed :=
    if text = "" then b
    else if b.mode = .layout ∧ b.current.length = 1 ∧ layoutHeadingLevel text ≠ 0 then
      b.heading (layoutHeadingLevel text) text
    else
      { b with
        blocks := b.blocks ++
          [{ text, kind := b.kind, page := b.page, headings := b.headings }] }
  { flushed with current := [] }

/-- One line of `feed`. -/
def feedLine (b : BlockBuilder) (line : String) : BlockBuilder :=
  if stripText line = "" then b.flush
  else
    match if b.mode = .markdown then HEADING.matchAt { rest := line.toList } else none with
    | some m =>
        b.flush.heading (m.group 1).length (String.ofList (Text.strip (m.group 2)))
    | none =>
        if (ITEM.matchAt { rest := line.toList }).isSome then
          -- the number stays: an item is citable by it
          { b.flush with kind := .item, current := [stripText line] }
        else
          { b with
            kind := if b.current = [] then .paragraph else b.kind
            current := b.current ++ [stripText line] }

def feed (b : BlockBuilder) (lines : List String) (page : Option Nat) : BlockBuilder :=
  (lines.foldl feedLine { b with page }).flush

/-- A builder fed page by page. -/
def feedPages (mode : HeadingMode) (pages : List (Option Nat × List String)) : BlockBuilder :=
  pages.foldl (fun b page => b.feed page.2 page.1) { mode }

end BlockBuilder

/-- `_blocks_from_lines` -/
def blocksFromLines (lines : List String) (page : Option Nat := none)
    (mode : HeadingMode := .markdown) : List Block :=
  (({ mode } : BlockBuilder).feed lines page).blocks

/-! ## Words -/

def wordsIn (text : String) : List (List Char) := Text.words text.toList

@[simp] theorem wordsIn_empty : wordsIn "" = [] := rfl

@[simp] theorem wordsIn_stripText (text : String) : wordsIn (stripText text) = wordsIn text := by
  unfold wordsIn stripText
  rw [String.toList_ofList, Text.words_strip]

/-- A text of stripped lines has their words. -/
theorem wordsIn_intercalate : ∀ lines : List String,
    wordsIn (" ".intercalate lines) = lines.flatMap wordsIn
  | [] => by simp
  | [line] => by simp
  | line :: next :: rest => by
      have later := wordsIn_intercalate (next :: rest)
      have blank : " ".toList = [' '] := by decide
      rw [String.intercalate_cons_cons, List.flatMap_cons, ← later]
      unfold wordsIn
      rw [String.toList_append, String.toList_append, blank, List.append_assoc,
        List.singleton_append, Text.words_append_blank (by decide)]

/-- What a match of a heading reads: the marks, a gap, and a title in one line. -/
theorem heading_shape {line : List Char} {m : Match}
    (matched : HEADING.matchAt { rest := line } = some m) :
    ∃ lead gap tail, line = lead ++ (m.group 1 ++ (gap ++ (m.group 2 ++ tail))) ∧
      (∀ c ∈ lead, Text.isSpace c = true) ∧ (∀ c ∈ m.group 1, c = '#') ∧
      1 ≤ (m.group 1).length ∧ (m.group 1).length ≤ 6 ∧ gap ≠ [] ∧
      (∀ c ∈ gap, Text.isSpace c = true) ∧ ∀ c ∈ tail, Text.isSpace c = true := by
  obtain ⟨t, way, rfl⟩ := matchAt_mem matched
  obtain ⟨s₁, front, way⟩ := mem_run_seq.mp way
  obtain ⟨s₂, marks, way⟩ := mem_run_seq.mp way
  obtain ⟨s₃, spaces, way⟩ := mem_run_seq.mp way
  obtain ⟨s₄, title, way⟩ := mem_run_seq.mp way
  obtain ⟨s₅, behind, way⟩ := mem_run_seq.mp way
  obtain ⟨s₆, feed, last⟩ := mem_run_seq.mp behind
  obtain ⟨lead, shape₁, allLead, -, -, groups₁⟩ := mem_run_rep_set front
  obtain ⟨u₂, inner₂, rest₂, captured₂⟩ := mem_run_group marks
  obtain ⟨hashes, shape₂, allHashes, least, most, groups₂⟩ := mem_run_rep_set inner₂
  obtain ⟨gap, shape₃, allGap, more, -, groups₃⟩ := mem_run_rep_set spaces
  obtain ⟨u₄, inner₄, rest₄, captured₄⟩ := mem_run_group title
  obtain ⟨text, shape₄, -, -, -, groups₄⟩ := mem_run_rep_set inner₄
  obtain ⟨tail, shape₅, allTail, -, -, groups₅⟩ := mem_run_rep_set feed
  obtain ⟨rfl, ended⟩ := mem_run_look last
  obtain rfl : t = s₅ := List.mem_singleton.mp way
  have two := captured₄ text shape₄
  have one := captured₂ hashes shape₂
  have first : Match.group { text := ({ rest := line } : Place).read t, groups := t.groups } 1 =
      hashes := by
    rw [Match.group, groups₅, two, groups₄, groups₃, one]
    rfl
  have second : Match.group { text := ({ rest := line } : Place).read t, groups := t.groups } 2 =
      text := by
    rw [Match.group, groups₅, two]
    rfl
  have empty : t.rest = [] := by
    cases rest : t.rest with
    | nil => rfl
    | cons c later =>
        rw [rest] at ended
        cases ended
  rw [first, second]
  refine ⟨lead, gap, tail, ?_, allLead, ?_, least, most 6 rfl, ?_, allGap, ?_⟩
  · show line = _
    rw [show line = lead ++ s₁.rest from shape₁, shape₂, ← rest₂, shape₃, shape₄, ← rest₄, shape₅,
      empty, List.append_nil]
  · exact fun c mem => of_decide_eq_true (allHashes c mem)
  · exact List.length_pos_iff.mp more
  · intro c mem
    rw [of_decide_eq_true (allTail c mem)]
    decide

/-- The words of a line that its blocks keep: of a Markdown heading those of its title. -/
def keptWords (mode : HeadingMode) (line : String) : List (List Char) :=
  match if mode = .markdown then HEADING.matchAt { rest := line.toList } else none with
  | some m => Text.words (m.group 2)
  | none => wordsIn line

/-- The words of a Markdown heading are its marks and those of its title. -/
theorem words_of_heading {line : String} {m : Match}
    (matched : HEADING.matchAt { rest := line.toList } = some m) :
    wordsIn line = m.group 1 :: Text.words (m.group 2) := by
  obtain ⟨lead, gap, tail, shape, blankLead, marks, least, -, some, blankGap, blankTail⟩ :=
    heading_shape matched
  obtain ⟨c, gap, rfl⟩ := List.exists_cons_of_ne_nil some
  have solid : ∀ d ∈ m.group 1, Text.isSpace d = false := by
    intro d mem
    rw [marks d mem]
    decide
  unfold wordsIn
  rw [shape, Text.words_blanks blankLead, List.cons_append,
    Text.words_append_blank (blankGap c List.mem_cons_self),
    Text.words_solid (List.ne_nil_of_length_pos least) solid,
    Text.words_blanks fun d mem => blankGap d (List.mem_cons_of_mem c mem),
    Text.words_append_blanks blankTail, List.singleton_append]

namespace BlockBuilder

/-- The words a builder holds: those of its blocks, then those of the current paragraph. -/
def held (b : BlockBuilder) : List (List Char) :=
  b.blocks.flatMap (fun block => wordsIn block.text) ++ b.current.flatMap wordsIn

theorem heading_words (b : BlockBuilder) (level : Nat) (title : String) :
    (b.heading level title).blocks.flatMap (fun block => wordsIn block.text) =
      b.blocks.flatMap (fun block => wordsIn block.text) ++ wordsIn title := by
  unfold heading
  simp

theorem flush_current (b : BlockBuilder) : b.flush.current = [] := rfl

/-- A flush keeps the words, and leaves no current paragraph. -/
theorem flush_words (b : BlockBuilder) :
    b.flush.blocks.flatMap (fun block => wordsIn block.text) = b.held := by
  have text : wordsIn (stripText (" ".intercalate b.current)) = b.current.flatMap wordsIn := by
    rw [wordsIn_stripText, wordsIn_intercalate]
  unfold flush held
  dsimp only
  by_cases empty : stripText (" ".intercalate b.current) = ""
  · rw [if_pos empty, ← text, empty, wordsIn_empty, List.append_nil]
  · rw [if_neg empty]
    split
    · rw [heading_words, text]
    · simp [text]

theorem flush_held (b : BlockBuilder) : b.flush.held = b.held := by
  rw [← flush_words b]
  unfold held
  rw [flush_current]
  simp

/-- The heading a line is, in Markdown. -/
def headingOf (mode : HeadingMode) (line : String) : Option Match :=
  if mode = .markdown then HEADING.matchAt { rest := line.toList } else none

/-- The line begins an item. -/
def isItem (line : String) : Bool := (ITEM.matchAt { rest := line.toList }).isSome

/-- Everything a line can do to a builder. -/
theorem feedLine_cases (b : BlockBuilder) (line : String) :
    (stripText line = "" ∧ b.feedLine line = b.flush) ∨
    (∃ m, headingOf b.mode line = some m ∧
      b.feedLine line =
        b.flush.heading (m.group 1).length (String.ofList (Text.strip (m.group 2)))) ∨
    (headingOf b.mode line = none ∧
      b.feedLine line = { b.flush with kind := .item, current := [stripText line] } ∧
      stripText line ≠ "" ∧ isItem line = true) ∨
    (headingOf b.mode line = none ∧
      b.feedLine line =
        { b with
          kind := if b.current = [] then .paragraph else b.kind
          current := b.current ++ [stripText line] } ∧
      stripText line ≠ "" ∧ isItem line = false) := by
  unfold feedLine
  by_cases empty : stripText line = ""
  · exact .inl ⟨empty, by rw [if_pos empty]⟩
  · rw [if_neg empty]
    refine .inr ?_
    cases known : headingOf b.mode line with
    | some m =>
        refine .inl ⟨m, rfl, ?_⟩
        unfold headingOf at known
        rw [known]
    | none =>
        refine .inr ?_
        unfold headingOf at known
        rw [known]
        by_cases item : (ITEM.matchAt { rest := line.toList }).isSome = true
        · exact .inl ⟨rfl, by dsimp only; rw [if_pos item], empty, item⟩
        · exact .inr ⟨rfl, by dsimp only; rw [if_neg item], empty, Bool.eq_false_iff.mpr item⟩

theorem keptWords_heading {mode : HeadingMode} {line : String} {m : Match}
    (known : headingOf mode line = some m) :
    keptWords mode line = Text.words (m.group 2) ∧ wordsIn line ≠ [] := by
  unfold headingOf at known
  refine ⟨by rw [keptWords, known], ?_⟩
  split at known
  · rw [words_of_heading known]
    exact List.cons_ne_nil _ _
  · cases known

theorem keptWords_plain {mode : HeadingMode} {line : String} (known : headingOf mode line = none) :
    keptWords mode line = wordsIn line := by
  unfold headingOf at known
  rw [keptWords, known]

/-- **A line adds its words.** -/
theorem feedLine_held (b : BlockBuilder) (line : String) :
    (b.feedLine line).held = b.held ++ keptWords b.mode line := by
  rcases feedLine_cases b line with
    ⟨empty, eq⟩ | ⟨m, known, eq⟩ | ⟨known, eq, -⟩ | ⟨known, eq, -⟩
  · have none : wordsIn line = [] := by rw [← wordsIn_stripText, empty, wordsIn_empty]
    have kept : keptWords b.mode line = [] := by
      cases known : headingOf b.mode line with
      | none => rw [keptWords_plain known, none]
      | some m => exact absurd none (keptWords_heading known).2
    rw [eq, flush_held, kept, List.append_nil]
  · have title : wordsIn (String.ofList (Text.strip (m.group 2))) = Text.words (m.group 2) := by
      unfold wordsIn
      rw [String.toList_ofList, Text.words_strip]
    have current : (b.flush.heading (m.group 1).length
        (String.ofList (Text.strip (m.group 2)))).current = [] := flush_current b
    rw [eq, held, heading_words, flush_words, title, current, (keptWords_heading known).1]
    simp
  · rw [eq, ← flush_words b, keptWords_plain known]
    unfold held
    simp
  · rw [eq, keptWords_plain known]
    unfold held
    simp

@[simp] theorem heading_mode (b : BlockBuilder) (level : Nat) (title : String) :
    (b.heading level title).mode = b.mode := rfl

@[simp] theorem flush_mode (b : BlockBuilder) : b.flush.mode = b.mode := by
  unfold flush
  dsimp only
  split
  · rfl
  · split <;> rfl

@[simp] theorem feedLine_mode (b : BlockBuilder) (line : String) :
    (b.feedLine line).mode = b.mode := by
  rcases feedLine_cases b line with
    ⟨-, eq⟩ | ⟨m, -, eq⟩ | ⟨-, eq, -⟩ | ⟨-, eq, -⟩
  · rw [eq, flush_mode]
  · rw [eq, heading_mode, flush_mode]
  · simp [eq]
  · rw [eq]

theorem feedLines_held : ∀ (lines : List String) (b : BlockBuilder),
    (lines.foldl feedLine b).held = b.held ++ lines.flatMap (keptWords b.mode) ∧
      (lines.foldl feedLine b).mode = b.mode
  | [], b => ⟨by simp, rfl⟩
  | line :: lines, b => by
      obtain ⟨words, mode⟩ := feedLines_held lines (b.feedLine line)
      rw [List.foldl_cons, words, mode, feedLine_held, feedLine_mode, List.flatMap_cons,
        List.append_assoc]
      exact ⟨rfl, rfl⟩

/-- The builder quotes what has been read: every block some of its words in a row, the current
paragraph the last ones. -/
structure Quotes (b : BlockBuilder) (read : List (List Char)) : Prop where
  blocks : ∀ block ∈ b.blocks, wordsIn block.text <:+: read
  current : b.current.flatMap wordsIn <:+ read

theorem Quotes.mono {b : BlockBuilder} {read : List (List Char)} (quotes : b.Quotes read)
    (more : List (List Char)) : ∀ block ∈ b.blocks, wordsIn block.text <:+: read ++ more :=
  fun block mem => (quotes.blocks block mem).trans (List.prefix_append read more).isInfix

theorem Quotes.flush {b : BlockBuilder} {read : List (List Char)} (quotes : b.Quotes read) :
    b.flush.Quotes read := by
  have text : wordsIn (stripText (" ".intercalate b.current)) = b.current.flatMap wordsIn := by
    rw [wordsIn_stripText, wordsIn_intercalate]
  refine ⟨?_, by rw [flush_current]; exact List.nil_suffix⟩
  intro block mem
  unfold BlockBuilder.flush at mem
  dsimp only at mem
  by_cases empty : stripText (" ".intercalate b.current) = ""
  · rw [if_pos empty] at mem
    exact quotes.blocks block mem
  · rw [if_neg empty] at mem
    have last : wordsIn block.text = wordsIn (stripText (" ".intercalate b.current)) →
        wordsIn block.text <:+: read := fun same => by
      rw [same, text]
      exact quotes.current.isInfix
    split at mem
    · rcases List.mem_append.mp mem with old | new
      · exact quotes.blocks block old
      · rw [List.mem_singleton.mp new] at last ⊢
        exact last rfl
    · rcases List.mem_append.mp mem with old | new
      · exact quotes.blocks block old
      · rw [List.mem_singleton.mp new] at last ⊢
        exact last rfl

theorem Quotes.feedLine {b : BlockBuilder} {read : List (List Char)} (quotes : b.Quotes read)
    (line : String) : (b.feedLine line).Quotes (read ++ wordsIn line) := by
  rcases feedLine_cases b line with
    ⟨empty, eq⟩ | ⟨m, known, eq⟩ | ⟨known, eq, -⟩ | ⟨known, eq, -⟩
  · have none : wordsIn line = [] := by rw [← wordsIn_stripText, empty, wordsIn_empty]
    rw [eq, none, List.append_nil]
    exact quotes.flush
  · have title : wordsIn (String.ofList (Text.strip (m.group 2))) = Text.words (m.group 2) := by
      unfold wordsIn
      rw [String.toList_ofList, Text.words_strip]
    have current : (b.flush.heading (m.group 1).length
        (String.ofList (Text.strip (m.group 2)))).current = [] := flush_current b
    rw [eq]
    refine ⟨?_, by rw [current]; exact List.nil_suffix⟩
    intro block mem
    rcases List.mem_append.mp mem with old | new
    · exact quotes.flush.mono _ block old
    · rw [List.mem_singleton.mp new]
      have spelled : ∃ marks, wordsIn line = marks :: Text.words (m.group 2) := by
        unfold headingOf at known
        split at known
        · exact ⟨_, words_of_heading known⟩
        · cases known
      obtain ⟨marks, shape⟩ := spelled
      exact ⟨read ++ [marks], [], by rw [title, shape]; simp⟩
  · rw [eq]
    refine ⟨fun block mem => ?_, ?_⟩
    · have kept : block ∈ b.flush.blocks := by simpa only using mem
      apply quotes.flush.mono (wordsIn line) block
      exact kept
    · rw [List.flatMap_singleton, wordsIn_stripText]
      exact List.suffix_append read (wordsIn line)
  · rw [eq]
    refine ⟨quotes.mono _, ?_⟩
    obtain ⟨front, shape⟩ := quotes.current
    exact ⟨front, by rw [← shape]; simp⟩

theorem Quotes.feedLines : ∀ (lines : List String) {b : BlockBuilder} {read : List (List Char)},
    b.Quotes read → (lines.foldl BlockBuilder.feedLine b).Quotes (read ++ lines.flatMap wordsIn)
  | [], _, _, quotes => by simpa using quotes
  | line :: lines, b, read, quotes => by
      have later := feedLines lines (quotes.feedLine line)
      rwa [List.append_assoc, ← List.flatMap_cons] at later

end BlockBuilder

/-! ## The outline -/

/-- The headings no later one of smaller or equal level closes. -/
def standing : List (Nat × String) → List (Nat × String)
  | [] => []
  | h :: hs => if hs.any fun k => k.1 ≤ h.1 then standing hs else h :: standing hs

/-- The headings among blocks, with their levels. -/
def headingsIn (blocks : List Block) : List (Nat × String) :=
  blocks.filterMap fun b => if b.kind = .heading then some (b.level, b.text) else none

/-- The titles standing behind these blocks. -/
def outline (blocks : List Block) : List String := (standing (headingsIn blocks)).map Prod.snd

theorem standing_sublist : ∀ hs : List (Nat × String), (standing hs).Sublist hs
  | [] => .slnil
  | h :: hs => by
      rw [standing]
      split
      · exact (standing_sublist hs).cons h
      · exact (standing_sublist hs).cons_cons h

theorem standing_increasing : ∀ hs : List (Nat × String),
    (standing hs).Pairwise fun h k => h.1 < k.1
  | [] => .nil
  | h :: hs => by
      rw [standing]
      split
      · exact standing_increasing hs
      case isFalse open_ =>
        refine List.pairwise_cons.mpr ⟨?_, standing_increasing hs⟩
        intro k mem
        by_contra closes
        apply open_
        rw [List.any_eq_true]
        exact ⟨k, (standing_sublist hs).subset mem, decide_eq_true (Nat.le_of_not_lt closes)⟩

/-- A further heading closes those of its level and below. -/
theorem standing_snoc (h : Nat × String) : ∀ hs : List (Nat × String),
    standing (hs ++ [h]) = (standing hs).filter (fun k => k.1 < h.1) ++ [h]
  | [] => rfl
  | k :: hs => by
      have ih := standing_snoc h hs
      rw [List.cons_append, standing, standing, List.any_append]
      by_cases closed : hs.any (fun j => j.1 ≤ k.1) = true
      · rw [if_pos (by simp [closed]), if_pos closed, ih]
      · rw [if_neg closed]
        by_cases closes : h.1 ≤ k.1
        · rw [if_pos (by simp [closes]), ih, List.filter_cons_of_neg (by simpa using closes)]
        · rw [if_neg (by simpa [closes] using closed), ih,
            List.filter_cons_of_pos (by simpa using closes), List.cons_append]

theorem unwind_eq {level : Nat} {path : List (Nat × String)}
    (increasing : path.Pairwise fun h k => h.1 < k.1) :
    BlockBuilder.unwind level path = path.filter fun k => k.1 < level := by
  unfold BlockBuilder.unwind
  induction path using List.reverseRec with
  | nil => rfl
  | append_singleton init last ih =>
      obtain ⟨front, -, below⟩ := List.pairwise_append.mp increasing
      rw [List.reverse_append, List.reverse_singleton, List.singleton_append, List.filter_append]
      by_cases closes : level ≤ last.1
      · rw [List.dropWhile_cons_of_pos (by simpa using closes), ih front,
          List.filter_cons_of_neg (by simpa using closes), List.filter_nil, List.append_nil]
      · have all : init.filter (fun k => k.1 < level) = init := by
          rw [List.filter_eq_self]
          intro k mem
          have := below k mem last List.mem_cons_self
          simp only [decide_eq_true_eq]
          omega
        rw [List.dropWhile_cons_of_neg (by simpa using closes), all,
          List.filter_cons_of_pos (by simpa using closes), List.reverse_cons, List.reverse_reverse,
          List.filter_nil]

/-- Every block records the titles standing up to and including it. -/
def RecordsOutline (blocks : List Block) : Prop :=
  ∀ pre x post, blocks = pre ++ x :: post → x.headings = outline (pre ++ [x])

theorem RecordsOutline.snoc {blocks : List Block} {y : Block} (recorded : RecordsOutline blocks)
    (here : y.headings = outline (blocks ++ [y])) : RecordsOutline (blocks ++ [y]) := by
  intro pre x post split
  rcases List.eq_nil_or_concat post with rfl | ⟨front, last, rfl⟩
  · obtain ⟨same, last⟩ := List.append_inj' split rfl
    rw [← same, ← (List.cons.inj last).1]
    exact here
  · rw [List.concat_eq_append, ← List.cons_append, ← List.append_assoc] at split
    exact recorded pre x front (List.append_inj' split rfl).1

theorem headingsIn_content {block : Block} (content : block.kind ≠ .heading) (blocks : List Block) :
    headingsIn (blocks ++ [block]) = headingsIn blocks := by
  simp [headingsIn, content]

namespace BlockBuilder

/-- The path is what stands behind the blocks, and the blocks record it. -/
structure Outlined (b : BlockBuilder) : Prop where
  path : b.path = standing (headingsIn b.blocks)
  recorded : RecordsOutline b.blocks
  content : b.kind ≠ .heading

variable {b : BlockBuilder}

theorem Outlined.heading (outlined : b.Outlined) (level : Nat) (title : String) :
    (b.heading level title).Outlined := by
  have path : unwind level b.path ++ [(level, title)] =
      standing (headingsIn b.blocks ++ [(level, title)]) := by
    rw [outlined.path, unwind_eq (standing_increasing _), standing_snoc]
  have listed : ∀ block : Block, block.kind = .heading → block.level = level → block.text = title →
      headingsIn (b.blocks ++ [block]) = headingsIn b.blocks ++ [(level, title)] := by
    intro block kind at_ text
    simp [headingsIn, kind, at_, text]
  unfold BlockBuilder.heading
  refine ⟨?_, outlined.recorded.snoc ?_, outlined.content⟩
  · dsimp only
    rw [path, listed _ rfl rfl rfl]
  · rw [outline, listed _ rfl rfl rfl, ← path]

theorem Outlined.content_block (outlined : b.Outlined) (text : String) :
    Outlined { b with blocks := b.blocks ++
      [{ text, kind := b.kind, page := b.page, headings := b.headings }] } := by
  refine ⟨?_, outlined.recorded.snoc ?_, outlined.content⟩
  · dsimp only
    rw [outlined.path, headingsIn_content outlined.content]
  · rw [outline, headingsIn_content outlined.content, ← outlined.path]
    rfl

theorem Outlined.flush (outlined : b.Outlined) : b.flush.Outlined := by
  unfold BlockBuilder.flush
  dsimp only
  split
  · exact ⟨outlined.path, outlined.recorded, outlined.content⟩
  · split
    · have headed := outlined.heading (layoutHeadingLevel (stripText (" ".intercalate b.current)))
        (stripText (" ".intercalate b.current))
      exact ⟨headed.path, headed.recorded, headed.content⟩
    · have added := outlined.content_block (stripText (" ".intercalate b.current))
      exact ⟨added.path, added.recorded, added.content⟩

theorem Outlined.feedLine (outlined : b.Outlined) (line : String) : (b.feedLine line).Outlined := by
  have flushed := outlined.flush
  rcases feedLine_cases b line with
    ⟨-, eq⟩ | ⟨m, -, eq⟩ | ⟨-, eq, -⟩ | ⟨-, eq, -⟩
  · rw [eq]
    exact flushed
  · rw [eq]
    exact flushed.heading _ _
  · rw [eq]
    refine ⟨?_, ?_, fun h => nomatch h⟩
    · dsimp only
      exact flushed.path
    · dsimp only
      exact flushed.recorded
  · rw [eq]
    refine ⟨outlined.path, outlined.recorded, ?_⟩
    dsimp only
    split
    · exact fun h => nomatch h
    · exact outlined.content

theorem Outlined.feedLines : ∀ (lines : List String) {b : BlockBuilder}, b.Outlined →
    (lines.foldl BlockBuilder.feedLine b).Outlined
  | [], _, outlined => outlined
  | line :: lines, _, outlined => (outlined.feedLine line).feedLines lines

theorem Outlined.turn (outlined : b.Outlined) (page : Option Nat) :
    Outlined { b with page } :=
  ⟨outlined.path, outlined.recorded, outlined.content⟩

theorem feedPages_outlined (mode : HeadingMode) (pages : List (Option Nat × List String)) :
    (feedPages mode pages).Outlined := by
  have all : ∀ (pages : List (Option Nat × List String)) (b : BlockBuilder), b.Outlined →
      (pages.foldl (fun b page => b.feed page.2 page.1) b).Outlined := by
    intro pages
    induction pages with
    | nil => exact fun _ outlined => outlined
    | cons page pages ih =>
        intro b outlined
        have fed : (b.feed page.2 page.1).Outlined := by
          unfold BlockBuilder.feed
          exact ((outlined.turn page.1).feedLines page.2).flush
        rw [List.foldl_cons]
        exact ih _ fed
  refine all pages { mode } ⟨rfl, ?_, fun h => nomatch h⟩
  intro pre x post split
  exact absurd split.symm (List.append_ne_nil_of_right_ne_nil pre (List.cons_ne_nil x post))

theorem Outlined.increasing (outlined : b.Outlined) : b.path.Pairwise fun h k => h.1 < k.1 := by
  rw [outlined.path]
  exact standing_increasing _

end BlockBuilder

/-- **A block is words of the lines in a row.** -/
theorem block_quotes (lines : List String) {block : Block}
    (mem : block ∈ blocksFromLines lines) : wordsIn block.text <:+: lines.flatMap wordsIn := by
  have start : ({ mode := .markdown } : BlockBuilder).Quotes [] := ⟨nofun, List.nil_suffix⟩
  have fed := (BlockBuilder.Quotes.feedLines lines start).flush
  exact fed.blocks block mem

/-- A heading holds across a page break until one of its level. -/
example : (BlockBuilder.feedPages .layout
    [(some 1, ["2 Patching", "", "2.2 API Tier", ""]), (some 2, ["one server at a time."])]).blocks.map
      Block.headings =
    [["2 Patching"], ["2 Patching", "2.2 API Tier"], ["2 Patching", "2.2 API Tier"]] := by
  decide +kernel

end OpsAssist
