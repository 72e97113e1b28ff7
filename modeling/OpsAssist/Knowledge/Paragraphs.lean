/-
# OpsAssist.Knowledge.Paragraphs -- which lines stand in one block

A paragraph is a run of lines none of which is blank or a heading, and none of which but the
first begins an item (`InParagraph`).  Every block of a Markdown text is part of one line or such
a run (`block_lines`), and every such run is part of a block (`run_in_block`).
-/
import OpsAssist.Knowledge.BlockBuilder
import OpsAssist.Theory.Blanks

namespace OpsAssist

set_option autoImplicit false

open Theory Pattern BlockBuilder

/-- A line of a paragraph. -/
def IsText (line : String) : Prop := stripText line ≠ "" ∧ headingOf .markdown line = none

/-- Lines that follow one another in a paragraph. -/
def InParagraph : List String → Prop
  | [] => False
  | line :: rest => IsText line ∧ ∀ l ∈ rest, IsText l ∧ isItem l = false

/-- The text of a paragraph with these lines. -/
def paragraphText (run : List String) : String := " ".intercalate (run.map stripText)

namespace BlockBuilder

@[simp] theorem heading_current (b : BlockBuilder) (level : Nat) (title : String) :
    (b.heading level title).current = b.current := rfl

theorem inParagraph_snoc : ∀ {run : List String} {line : String}, InParagraph run →
    IsText line → isItem line = false → InParagraph (run ++ [line])
  | first :: rest, line, whole, text, other =>
      ⟨whole.1, fun l mem => by
        rcases List.mem_append.mp mem with old | new
        · exact whole.2 l old
        · rw [List.mem_singleton.mp new]
          exact ⟨text, other⟩⟩

/-! ## From blocks to lines -/

/-- The text is part of one of the lines, or of a paragraph among them. -/
def FromLines (read : List String) (text : String) : Prop :=
  (∃ line ∈ read, text.toList <:+: line.toList) ∨
    ∃ run, run <:+: read ∧ InParagraph run ∧ text = stripText (paragraphText run)

theorem FromLines.mono {read : List String} {text : String} (there : FromLines read text)
    (more : List String) : FromLines (read ++ more) text := by
  rcases there with ⟨line, mem, inside⟩ | ⟨run, part, whole, same⟩
  · exact .inl ⟨line, List.mem_append_left more mem, inside⟩
  · exact .inr ⟨run, part.trans (List.prefix_append read more).isInfix, whole, same⟩

/-- Each block is made of the lines read, and the current lines are the last of them. -/
structure Gathers (b : BlockBuilder) (read : List String) : Prop where
  mode : b.mode = .markdown
  blocks : ∀ block ∈ b.blocks, FromLines read block.text
  current : b.current = [] ∨
    ∃ run, run <:+ read ∧ InParagraph run ∧ b.current = run.map stripText

variable {b : BlockBuilder} {read : List String}

/-- What a flush adds. -/
theorem flush_blocks (mode : b.mode = .markdown) :
    b.flush.blocks = b.blocks ∧ stripText (" ".intercalate b.current) = "" ∨
      ∃ block, b.flush.blocks = b.blocks ++ [block] ∧
        block.text = stripText (" ".intercalate b.current) ∧ block.text ≠ "" := by
  unfold BlockBuilder.flush
  dsimp only
  by_cases empty : stripText (" ".intercalate b.current) = ""
  · rw [if_pos empty]
    exact .inl ⟨rfl, empty⟩
  · have plain : ¬(b.mode = .layout ∧ b.current.length = 1 ∧
        layoutHeadingLevel (stripText (" ".intercalate b.current)) ≠ 0) := by
      rw [mode]
      exact fun layout => nomatch layout.1
    rw [if_neg empty, if_neg plain]
    exact .inr ⟨_, rfl, rfl, empty⟩

theorem Gathers.flush (gathers : b.Gathers read) : b.flush.Gathers read := by
  refine ⟨by rw [flush_mode, gathers.mode], ?_, .inl (flush_current b)⟩
  intro block mem
  rcases flush_blocks gathers.mode with ⟨same, -⟩ | ⟨last, added, text, some_text⟩
  · rw [same] at mem
    exact gathers.blocks block mem
  · rw [added] at mem
    rcases List.mem_append.mp mem with old | new
    · exact gathers.blocks block old
    · rw [List.mem_singleton.mp new]
      rcases gathers.current with none | ⟨run, part, whole, current⟩
      · rw [text, none] at some_text
        exact absurd (by decide) some_text
      · exact .inr ⟨run, part.isInfix, whole, by rw [text, current]; rfl⟩

/-- The title of a heading is part of its line. -/
theorem title_part {mode : HeadingMode} {line : String} {m : Match}
    (known : headingOf mode line = some m) : Text.strip (m.group 2) <:+: line.toList := by
  unfold headingOf at known
  split at known
  · obtain ⟨lead, gap, tail, shape, -⟩ := heading_shape known
    obtain ⟨front, back, around, -, -⟩ := Text.strip_shape (m.group 2)
    refine List.IsInfix.trans ⟨front, back, around.symm⟩ ?_
    rw [shape]
    exact ⟨lead ++ m.group 1 ++ gap, tail, by simp⟩
  · cases known

theorem Gathers.feedLine (gathers : b.Gathers read) (line : String) :
    (b.feedLine line).Gathers (read ++ [line]) := by
  have flushed := gathers.flush
  have mode : (b.feedLine line).mode = .markdown := by rw [feedLine_mode, gathers.mode]
  rcases feedLine_cases b line with
    ⟨-, eq⟩ | ⟨m, known, eq⟩ | ⟨known, eq, some_text, -⟩ | ⟨known, eq, some_text, other⟩
  · refine ⟨mode, fun block mem => ?_, ?_⟩
    · rw [eq] at mem
      exact (flushed.blocks block mem).mono _
    · rw [eq, flush_current]
      exact .inl rfl
  · refine ⟨mode, fun block mem => ?_, ?_⟩
    · rw [eq] at mem
      rcases List.mem_append.mp mem with old | new
      · exact (flushed.blocks block old).mono _
      · rw [List.mem_singleton.mp new]
        refine .inl ⟨line, by simp, ?_⟩
        rw [String.toList_ofList]
        exact title_part known
    · rw [eq, heading_current, flush_current]
      exact .inl rfl
  · rw [gathers.mode] at known
    refine ⟨mode, fun block mem => ?_, ?_⟩
    · rw [eq] at mem
      have kept : block ∈ b.flush.blocks := by simpa only using mem
      exact (flushed.blocks block kept).mono _
    · rw [eq]
      exact .inr ⟨[line], List.suffix_append read [line], ⟨⟨some_text, known⟩, nofun⟩, rfl⟩
  · rw [gathers.mode] at known
    refine ⟨mode, fun block mem => ?_, ?_⟩
    · rw [eq] at mem
      have kept : block ∈ b.blocks := by simpa only using mem
      exact (gathers.blocks block kept).mono _
    · rw [eq]
      refine .inr ?_
      dsimp only
      rcases gathers.current with none | ⟨run, part, whole, current⟩
      · rw [none]
        exact ⟨[line], List.suffix_append read [line], ⟨⟨some_text, known⟩, nofun⟩, rfl⟩
      · obtain ⟨front, shape⟩ := part
        refine ⟨run ++ [line], ⟨front, by rw [← shape, List.append_assoc]⟩,
          inParagraph_snoc whole ⟨some_text, known⟩ other, ?_⟩
        rw [current, List.map_append]
        rfl

theorem Gathers.feedLines : ∀ (lines : List String) {b : BlockBuilder} {read : List String},
    b.Gathers read → (lines.foldl BlockBuilder.feedLine b).Gathers (read ++ lines)
  | [], _, _, gathers => by simpa using gathers
  | line :: lines, _, _, gathers => by
      have later := feedLines lines (gathers.feedLine line)
      rwa [List.append_assoc] at later

/-! ## From lines to blocks -/

theorem flush_keeps (mode : b.mode = .markdown) {block : Block} (mem : block ∈ b.blocks) :
    block ∈ b.flush.blocks := by
  rcases flush_blocks mode with ⟨same, -⟩ | ⟨last, added, -⟩
  · rwa [same]
  · rw [added]
    exact List.mem_append_left _ mem

theorem feedLine_keeps (mode : b.mode = .markdown) {block : Block} (mem : block ∈ b.blocks)
    (line : String) : block ∈ (b.feedLine line).blocks := by
  rcases feedLine_cases b line with ⟨-, eq⟩ | ⟨m, -, eq⟩ | ⟨-, eq, -⟩ | ⟨-, eq, -⟩
  · rw [eq]
    exact flush_keeps mode mem
  · rw [eq]
    exact List.mem_append_left _ (flush_keeps mode mem)
  · rw [eq]
    simpa only using flush_keeps mode mem
  · rw [eq]
    simpa only using mem

theorem feedLines_keep : ∀ (lines : List String) {b : BlockBuilder}, b.mode = .markdown →
    ∀ {block : Block}, block ∈ b.blocks → block ∈ (lines.foldl BlockBuilder.feedLine b).flush.blocks
  | [], _, mode, _, mem => flush_keeps mode mem
  | line :: lines, _, mode, _, mem =>
      feedLines_keep lines (by rw [feedLine_mode, mode]) (feedLine_keeps mode mem line)

/-- A block holds the lines, and perhaps some more at either end. -/
def Around (lines : List String) (text : String) : Prop :=
  ∃ front back, text = stripText (" ".intercalate (front ++ lines ++ back))

/-- Lines that are held and hold a word come to stand in a block. -/
theorem flush_around (mode : b.mode = .markdown) {front lines back : List String}
    (held : b.current = front ++ lines ++ back) (some_word : lines.flatMap wordsIn ≠ []) :
    ∃ block ∈ b.flush.blocks, Around lines block.text := by
  rcases flush_blocks mode with ⟨-, empty⟩ | ⟨block, added, text, -⟩
  · have none : wordsIn (stripText (" ".intercalate b.current)) = [] := by
      rw [empty, wordsIn_empty]
    rw [wordsIn_stripText, wordsIn_intercalate, held, List.flatMap_append, List.flatMap_append,
      List.append_eq_nil_iff, List.append_eq_nil_iff] at none
    exact absurd none.1.2 some_word
  · exact ⟨block, by rw [added]; simp, front, back, by rw [text, held]⟩

theorem feedLines_around {lines : List String} (some_word : lines.flatMap wordsIn ≠ []) :
    ∀ (later : List String) {b : BlockBuilder} {front back : List String}, b.mode = .markdown →
      b.current = front ++ lines ++ back →
        ∃ block ∈ (later.foldl BlockBuilder.feedLine b).flush.blocks, Around lines block.text
  | [], _, _, _, mode, held => flush_around mode held some_word
  | line :: later, b, front, back, mode, held => by
      have next : (b.feedLine line).mode = .markdown := by rw [feedLine_mode, mode]
      have closes : (∀ block ∈ b.flush.blocks, block ∈ (b.feedLine line).blocks) →
          ∃ block ∈ ((line :: later).foldl BlockBuilder.feedLine b).flush.blocks,
            Around lines block.text := by
        intro kept
        obtain ⟨block, mem, around⟩ := flush_around mode held some_word
        exact ⟨block, feedLines_keep later next (kept block mem), around⟩
      rcases feedLine_cases b line with ⟨-, eq⟩ | ⟨m, -, eq⟩ | ⟨-, eq, -⟩ | ⟨-, eq, -⟩
      · exact closes fun block mem => by rwa [eq]
      · exact closes fun block mem => by
          rw [eq]
          exact List.mem_append_left _ mem
      · exact closes fun block mem => by
          rw [eq]
          simpa only using mem
      · have longer : (b.feedLine line).current = front ++ lines ++ (back ++ [stripText line]) := by
          rw [eq]
          dsimp only
          rw [held, List.append_assoc]
        exact feedLines_around some_word later next longer

/-- The lines of a paragraph are held together once they are read. -/
theorem feedLines_current : ∀ {rest : List String} {b : BlockBuilder}, b.mode = .markdown →
    (∀ l ∈ rest, IsText l ∧ isItem l = false) →
      (rest.foldl BlockBuilder.feedLine b).current = b.current ++ rest.map stripText
  | [], _, _, _ => by simp
  | line :: rest, b, mode, texts => by
      obtain ⟨⟨some_text, plain⟩, other⟩ := texts line List.mem_cons_self
      have next : (b.feedLine line).mode = .markdown := by rw [feedLine_mode, mode]
      rw [List.foldl_cons, feedLines_current next fun l mem => texts l (List.mem_cons_of_mem _ mem)]
      rcases feedLine_cases b line with ⟨empty, -⟩ | ⟨m, known, -⟩ | ⟨-, -, -, item⟩ | ⟨-, eq, -⟩
      · exact absurd empty some_text
      · rw [mode, plain] at known
        cases known
      · rw [other] at item
        cases item
      · rw [eq]
        simp

theorem paragraph_current (mode : b.mode = .markdown) {run : List String} (whole : InParagraph run) :
    ∃ front, (run.foldl BlockBuilder.feedLine b).current = front ++ run.map stripText := by
  cases run with
  | nil => exact absurd whole id
  | cons line rest =>
      obtain ⟨⟨some_text, plain⟩, rest_texts⟩ := whole
      have next : (b.feedLine line).mode = .markdown := by rw [feedLine_mode, mode]
      rw [List.foldl_cons, feedLines_current next rest_texts]
      rcases feedLine_cases b line with ⟨empty, -⟩ | ⟨m, known, -⟩ | ⟨-, eq, -⟩ | ⟨-, eq, -⟩
      · exact absurd empty some_text
      · rw [mode, plain] at known
        cases known
      · exact ⟨[], by rw [eq]; rfl⟩
      · exact ⟨b.current, by rw [eq]; simp⟩

theorem words_of_paragraph {run : List String} (whole : InParagraph run) :
    (run.map stripText).flatMap wordsIn ≠ [] := by
  cases run with
  | nil => exact absurd whole id
  | cons line rest =>
      rw [List.map_cons, List.flatMap_cons, wordsIn_stripText]
      apply List.append_ne_nil_of_left_ne_nil
      intro none
      apply whole.1.1
      rw [stripText, Text.strip_wordless none]

end BlockBuilder

/-- **A block of a Markdown text is part of a line, or a paragraph.** -/
theorem block_lines {lines : List String} {block : Block} (mem : block ∈ blocksFromLines lines) :
    FromLines lines block.text := by
  have start : ({ mode := .markdown } : BlockBuilder).Gathers [] := ⟨rfl, nofun, .inl rfl⟩
  exact (Gathers.feedLines lines start).flush.blocks block mem

/-- **A paragraph stands in a block.** -/
theorem run_in_block {lines run : List String} (part : run <:+: lines) (whole : InParagraph run) :
    ∃ block ∈ blocksFromLines lines, Around (run.map stripText) block.text := by
  obtain ⟨before, later, rfl⟩ := part
  have start : ∀ lines : List String,
      (lines.foldl BlockBuilder.feedLine { mode := .markdown }).mode = .markdown := fun lines =>
    (feedLines_held lines { mode := .markdown }).2
  obtain ⟨front, held⟩ := paragraph_current (start before) whole
  have shape : blocksFromLines (before ++ run ++ later) = (later.foldl BlockBuilder.feedLine
      (run.foldl BlockBuilder.feedLine
        (before.foldl BlockBuilder.feedLine { mode := .markdown }))).flush.blocks := by
    unfold blocksFromLines BlockBuilder.feed
    rw [List.foldl_append, List.foldl_append]
  rw [shape]
  refine feedLines_around (words_of_paragraph whole) later ?_ (by rw [held, List.append_nil])
  rw [← List.foldl_append, start]

end OpsAssist
