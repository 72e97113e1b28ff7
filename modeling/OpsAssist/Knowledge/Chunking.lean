/-
# OpsAssist.Knowledge.Chunking -- parent-child chunking with citable locators

Paragraphs become units, oversized ones split at sentences with one sentence of overlap;
units are packed into parents, and the units of a parent into children.  The two loops are
one greedy packing with different breaks and carries (`packFrom`).

`sentences_kept` is what a split paragraph keeps, `chunking_exact` what the chunks of a
document are.  A locator names the paragraphs of a parent, so the only parents it does not
tell apart are pieces of one paragraph (`locators_apart_iff`).
-/
import OpsAssist.Knowledge.Parsing
import OpsAssist.Memory
import OpsAssist.Theory.Numeral
import OpsAssist.Theory.Packing
import OpsAssist.Theory.Pattern

namespace OpsAssist.Chunking

set_option autoImplicit false

open Theory Pattern

/-! ## Units -/

def DASH : String := "–"
def PATH_SEP : String := " > "
def LOCATOR_SEP : String := " › "

/-- `_SENTENCE`: a blank run behind a sentence and before what can begin one. -/
def SENTENCE : Pattern :=
  all [.look fun prior _ => prior = some '.' || prior = some '!' || prior = some '?',
    plus (.set Text.isSpace),
    .look fun _ next => (next.map fun c => c.isUpper || c.isDigit || c == '"' || c == Char.ofNat 39 ||
      c == '(').getD false]

/-- Limits in tokens; a limit below 0 acts as 0. -/
structure ChunkingConfig where
  targetTokens : Nat := 64
  maxTokens : Nat := 256
  splitTokens : Nat := 160

structure TextUnit where
  text : String
  /-- the number of the paragraph or item in the document, from 1 -/
  ordinal : Nat
  page : Option Nat
  headings : List String
deriving DecidableEq

structure Chunk where
  index : Nat
  parentIndex : Nat
  text : String
  embedText : String
  context : String
  locator : String
  section_ : Option String
  headings : List String
  pageStart : Option Nat
  tokenCount : Nat

def sentencesOf (text : String) : List String := (SENTENCE.splits text.toList).map String.ofList

/-- The groups of sentences an oversized text is split into; the last sentence of each is
carried over. -/
def pieces (targetTokens : Nat) (text : String) : List (List String) :=
  packFrom
    (fun piece sentence =>
      decide (targetTokens < estimateTokens (" ".intercalate (piece ++ [sentence]))))
    (fun piece => piece.getLast?.toList) [] (sentencesOf text)

def unitOf (block : Block) (ordinal : Nat) (text : String) : TextUnit :=
  { text, ordinal, page := block.page, headings := block.headings }

/-- The units of one block. -/
def splitBlock (splitTokens targetTokens ordinal : Nat) (block : Block) : List TextUnit :=
  if estimateTokens block.text ≤ splitTokens then [unitOf block ordinal block.text]
  else (pieces targetTokens block.text).map fun piece =>
    unitOf block ordinal (" ".intercalate piece)

/-- The units of the blocks after `ordinal` paragraphs and items. -/
def splitUnitsFrom (splitTokens targetTokens : Nat) : Nat → List Block → List TextUnit
  | _, [] => []
  | ordinal, block :: blocks =>
      if block.kind = .heading then splitUnitsFrom splitTokens targetTokens ordinal blocks
      else splitBlock splitTokens targetTokens (ordinal + 1) block ++
        splitUnitsFrom splitTokens targetTokens (ordinal + 1) blocks

def splitUnits (blocks : List Block) (splitTokens targetTokens : Nat) : List TextUnit :=
  splitUnitsFrom splitTokens targetTokens 0 blocks

def newSection (current : List TextUnit) (unit : TextUnit) : Bool :=
  current.getLast?.any fun last => decide (unit.headings ≠ last.headings)

def tooBig (limit : Nat) (current : List TextUnit) (unit : TextUnit) : Bool :=
  decide (limit < estimateTokens (" ".intercalate ((current ++ [unit]).map TextUnit.text)))

/-- Greedy packing that never crosses a section (heading path) boundary. -/
def packUnits (units : List TextUnit) (limit : Nat) : List (List TextUnit) :=
  packFrom (fun current unit => newSection current unit || tooBig limit current unit)
    (fun _ => []) [] units

/-! ## Chunks -/

/-- The document title is often also the first heading; it is not repeated. -/
def pathOf (title : String) (headings : List String) : List String :=
  headings.filter fun h => h ≠ title

/-- The paragraphs a locator names. -/
def paragraphs (first last : Nat) : String :=
  if first = last then "¶" ++ toString first else "¶" ++ toString first ++ DASH ++ toString last

def pageText : Option Nat → String
  | none => "None"
  | some page => toString page

/-- The parts before the paragraphs, each with the blank behind it. -/
def whereabouts (title : String) (fullPath : Bool) (first last : TextUnit) : List String :=
  let path := pathOf title first.headings
  (if path = [] then [] else
    ["§" ++ if fullPath then LOCATOR_SEP.intercalate path else path.getLast?.getD ""]) ++
  match first.page with
  | none => []
  | some page =>
      [if first.page = last.page then "p." ++ toString page
        else "pp." ++ toString page ++ DASH ++ pageText last.page]

/-- Of no units, which no caller passes, the empty text. -/
def locatorFor (title : String) (group : List TextUnit) (fullPath : Bool := true) : String :=
  match group with
  | [] => ""
  | first :: rest =>
      let last := rest.getLast?.getD first
      " ".intercalate (whereabouts title fullPath first last ++
        [paragraphs first.ordinal last.ordinal])

def headerFor (title : String) (headings : List String) (fullPath : Bool := true) : String :=
  let path := pathOf title headings
  if path = [] then title
  else if fullPath then title ++ "\n" ++ PATH_SEP.intercalate path
  else title ++ " - " ++ path.getLast?.getD ""

def bodyOf (group : List TextUnit) : String := "\n".intercalate (group.map TextUnit.text)

def makeChunk (index : Nat) (group : List TextUnit) (context header locator : String)
    (parentIndex : Option Nat := none) : Chunk :=
  let body := bodyOf group
  let headings := (group.head?.map TextUnit.headings).getD []
  { index
    parentIndex := parentIndex.getD index
    text := body
    embedText := header ++ "\n" ++ body
    context
    locator
    section_ := headings.getLast?
    headings
    pageStart := group.head?.bind TextUnit.page
    tokenCount := estimateTokens body }

def chunkDocument (doc : ParsedDocument) (cfg : ChunkingConfig := {}) : List Chunk :=
  let title := doc.metadata.title
  let units := splitUnits doc.blocks cfg.splitTokens cfg.targetTokens
  (packUnits units cfg.maxTokens).zipIdx.foldl
    (fun chunks parent =>
      (packUnits parent.1 cfg.targetTokens).foldl
        (fun chunks child =>
          chunks ++ [makeChunk chunks.length child (bodyOf parent.1)
            (headerFor title ((child.head?.map TextUnit.headings).getD []))
            (locatorFor title parent.1) (some parent.2)])
        chunks)
    []

/-! ## Sentences -/

theorem sentencesOf_ne_nil (text : String) : sentencesOf text ≠ [] := by
  unfold sentencesOf
  rw [Ne, List.map_eq_nil_iff]
  exact between_ne_nil _

section

variable {target : Nat} {text : String}

theorem pieces_ne_nil : ∀ run ∈ pieces target text, run ≠ [] := packFrom_ne_nil _ _

/-- One sentence is carried over. -/
theorem carried_one {run : List String} (held : run ≠ []) : run.getLast?.toList.length = 1 := by
  rw [List.getLast?_eq_getLast_of_ne_nil held]
  rfl

/-- Each later piece begins with the last sentence of the one before, and has another. -/
theorem pieces_overlap : (pieces target text).IsChain fun g h =>
    h.head? = g.getLast? ∧ 2 ≤ h.length := by
  have linked : (pieces target text).IsChain fun g h =>
      ∃ a more, h = g.getLast?.toList ++ a :: more := packFrom_linked _ _
  have held : ∀ run ∈ pieces target text, run ≠ [] := pieces_ne_nil
  revert linked held
  generalize pieces target text = runs
  intro linked held
  induction linked with
  | nil => exact .nil
  | singleton run => exact .singleton run
  | cons_cons first _ ih =>
      refine List.isChain_cons_cons.mpr ⟨?_, ih fun run mem => held run (List.mem_cons_of_mem _ mem)⟩
      obtain ⟨a, more, rfl⟩ := first
      have one := held _ List.mem_cons_self
      rw [List.getLast?_eq_getLast_of_ne_nil one]
      simp

/-- The pieces, each later one without its first sentence, are the sentences. -/
theorem pieces_joined :
    ((pieces target text).take 1 ++ ((pieces target text).drop 1).map List.tail).flatten =
      sentencesOf text := by
  rw [← united_heads fun run mem => ⟨pieces_ne_nil run mem, carried_one (pieces_ne_nil run mem)⟩]
  exact packFrom_united _ _

theorem pieces_contiguous : ∀ run ∈ pieces target text, run <:+: sentencesOf text := by
  refine packFrom_part (fun g => ?_) (sentencesOf text) []
  rcases List.eq_nil_or_concat g with rfl | ⟨front, last, rfl⟩
  · exact List.suffix_rfl
  · simp

theorem pieces_start : (pieces target text).head?.bind List.head? = (sentencesOf text).head? := by
  obtain ⟨first, rest, shape⟩ := List.exists_cons_of_ne_nil (sentencesOf_ne_nil text)
  unfold pieces
  rw [shape, packFrom, List.isEmpty_nil]
  obtain ⟨more, later, eq⟩ := packFrom_head
    (fun piece sentence =>
      decide (target < estimateTokens (" ".intercalate (piece ++ [sentence]))))
    (fun piece => piece.getLast?.toList) rest (List.cons_ne_nil first [])
  exact (congrArg (fun gs => gs.head?.bind List.head?) eq).trans rfl

theorem pieces_end : (pieces target text).getLast?.bind List.getLast? =
    (sentencesOf text).getLast? :=
  packFrom_last (sentencesOf text) []

/-- Two neighbouring sentences are together in some piece. -/
theorem pieces_together {pre post : List String} {a b : String}
    (neighbours : sentencesOf text = pre ++ a :: b :: post) :
    Together (pieces target text) a b := by
  unfold pieces
  rw [neighbours]
  exact packFrom_adjacent (fun x => ⟨[], by simp⟩) pre post []

/-- A piece of three or more sentences is within the target. -/
theorem pieces_bounded {run : List String} (mem : run ∈ pieces target text)
    (long : 3 ≤ run.length) : estimateTokens (" ".intercalate run) ≤ target := by
  have short : ∀ g : List String, g.getLast?.toList.length ≤ 1 := fun g => by
    cases g.getLast? <;> simp
  have fits := packFrom_fits short (sentencesOf text) (unbroken_nil 1) run mem
  obtain ⟨init, last, rfl⟩ : ∃ init last, run = init ++ [last] := by
    rcases List.eq_nil_or_concat run with rfl | ⟨init, last, rfl⟩
    · exact absurd long (by simp)
    · exact ⟨init, last, List.concat_eq_append⟩
  rw [List.length_append, List.length_singleton] at long
  have := fits init last [] rfl (by omega)
  simpa using this

end

/-! ## Units of a document -/

/-- The paragraphs and items. -/
def contentBlocks (blocks : List Block) : List Block := blocks.filter fun b => b.kind ≠ .heading

section

variable {splitTokens targetTokens : Nat}

theorem splitBlock_ne_nil (ordinal : Nat) (block : Block) :
    splitBlock splitTokens targetTokens ordinal block ≠ [] := by
  unfold splitBlock
  split
  · exact List.cons_ne_nil _ _
  · rw [Ne, List.map_eq_nil_iff]
    intro none
    have joined := @pieces_joined targetTokens block.text
    rw [none] at joined
    exact sentencesOf_ne_nil block.text joined.symm

/-- All units of a block carry its number, page and headings. -/
theorem mem_splitBlock {ordinal : Nat} {block : Block} {u : TextUnit}
    (mem : u ∈ splitBlock splitTokens targetTokens ordinal block) :
    u.ordinal = ordinal ∧ u.page = block.page ∧ u.headings = block.headings := by
  unfold splitBlock at mem
  split at mem
  · rw [List.mem_singleton.mp mem]
    exact ⟨rfl, rfl, rfl⟩
  · obtain ⟨piece, -, rfl⟩ := List.mem_map.mp mem
    exact ⟨rfl, rfl, rfl⟩

theorem splitUnitsFrom_eq : ∀ (ordinal : Nat) (blocks : List Block),
    splitUnitsFrom splitTokens targetTokens ordinal blocks =
      ((contentBlocks blocks).zipIdx (ordinal + 1)).flatMap fun b =>
        splitBlock splitTokens targetTokens b.2 b.1
  | _, [] => rfl
  | ordinal, block :: blocks => by
      rw [splitUnitsFrom]
      by_cases heading : block.kind = .heading
      · rw [if_pos heading, splitUnitsFrom_eq ordinal blocks]
        simp [contentBlocks, heading]
      · rw [if_neg heading, splitUnitsFrom_eq (ordinal + 1) blocks]
        simp [contentBlocks, heading]

theorem mem_splitUnits {blocks : List Block} {u : TextUnit} :
    u ∈ splitUnits blocks splitTokens targetTokens ↔
      ∃ n block, (contentBlocks blocks)[n]? = some block ∧
        u ∈ splitBlock splitTokens targetTokens (n + 1) block := by
  unfold splitUnits
  rw [splitUnitsFrom_eq, List.mem_flatMap]
  constructor
  · rintro ⟨⟨block, k⟩, listed, mem⟩
    obtain ⟨le, here⟩ := List.mem_zipIdx_iff_le_and_getElem?_sub.mp listed
    refine ⟨k - (0 + 1), block, here, ?_⟩
    rwa [show k - (0 + 1) + 1 = k by omega]
  · rintro ⟨n, block, here, mem⟩
    refine ⟨(block, n + 1), List.mem_zipIdx_iff_le_and_getElem?_sub.mpr ⟨by omega, ?_⟩, mem⟩
    rwa [show n + 1 - (0 + 1) = n by omega]

/-- The units with a block's number are those of that block. -/
theorem splitUnits_of_ordinal {blocks : List Block} {n : Nat} {block : Block}
    (here : (contentBlocks blocks)[n]? = some block) :
    (splitUnits blocks splitTokens targetTokens).filter (fun u => u.ordinal = n + 1) =
      splitBlock splitTokens targetTokens (n + 1) block := by
  unfold splitUnits
  rw [splitUnitsFrom_eq]
  generalize contentBlocks blocks = content at here
  have whole : ∀ (m k : Nat) (b : Block),
      (splitBlock splitTokens targetTokens k b).filter (fun u => u.ordinal = m) =
        if k = m then splitBlock splitTokens targetTokens k b else [] := by
    intro m k b
    split
    · rw [List.filter_eq_self]
      intro u mem
      rw [(mem_splitBlock mem).1]
      simpa
    · rw [List.filter_eq_nil_iff]
      intro u mem
      rw [(mem_splitBlock mem).1]
      simpa
  have later : ∀ (l : List Block) (k m : Nat), m < k →
      ((l.zipIdx k).flatMap fun b => splitBlock splitTokens targetTokens b.2 b.1).filter
        (fun u => u.ordinal = m) = [] := by
    intro l k m less
    rw [List.filter_eq_nil_iff]
    intro u mem
    obtain ⟨⟨b, i⟩, listed, inside⟩ := List.mem_flatMap.mp mem
    have := (List.mem_zipIdx_iff_le_and_getElem?_sub.mp listed).1
    rw [(mem_splitBlock inside).1]
    simp only [decide_eq_true_eq]
    omega
  have found : ∀ (l : List Block) (k i : Nat), l[i]? = some block →
      ((l.zipIdx k).flatMap fun b => splitBlock splitTokens targetTokens b.2 b.1).filter
        (fun u => u.ordinal = k + i) = splitBlock splitTokens targetTokens (k + i) block := by
    intro l
    induction l with
    | nil => simp
    | cons b l ih =>
        intro k i at_
        rw [List.zipIdx_cons, List.flatMap_cons, List.filter_append, whole]
        cases i with
        | zero =>
            have same : b = block := by simpa using at_
            rw [Nat.add_zero, if_pos rfl, later l (k + 1) k (by omega), List.append_nil, same]
        | succ i =>
            rw [if_neg (by omega), List.nil_append, show k + (i + 1) = k + 1 + i by omega]
            exact ih (k + 1) i (by simpa using at_)
  have := found content (0 + 1) n here
  rwa [show 0 + 1 + n = n + 1 by omega] at this

end

/-- What a split keeps of the sentences of its block. -/
structure SentencesKept (targetTokens : Nat) (block : Block) (ordinal : Nat)
    (units : List TextUnit) (runs : List (List String)) : Prop where
  /-- the units are joins of runs of sentences, with the data of the block -/
  joins : units = runs.map fun run => unitOf block ordinal (" ".intercalate run)
  contiguous : ∀ run ∈ runs, run ≠ [] ∧ run <:+: sentencesOf block.text
  starts : runs.head?.bind List.head? = (sentencesOf block.text).head?
  ends : runs.getLast?.bind List.getLast? = (sentencesOf block.text).getLast?
  /-- a later run begins with the last sentence of the one before, and goes on -/
  overlap : runs.IsChain fun g h => h.head? = g.getLast? ∧ 2 ≤ h.length
  restored : (runs.take 1 ++ (runs.drop 1).map List.tail).flatten = sentencesOf block.text
  together : ∀ pre a b post, sentencesOf block.text = pre ++ a :: b :: post → Together runs a b
  bounded : ∀ run ∈ runs, 3 ≤ run.length → estimateTokens (" ".intercalate run) ≤ targetTokens
  labels : ∀ u ∈ units, u.ordinal = ordinal ∧ u.page = block.page ∧ u.headings = block.headings

/-- **Sentence splitting keeps every neighbour together**: what `splitUnits` emits for the
`n`th paragraph or item, where it is oversized, are overlapping runs of its sentences. -/
theorem sentences_kept (blocks : List Block) (splitTokens targetTokens n : Nat) (block : Block)
    (here : (contentBlocks blocks)[n]? = some block)
    (oversized : splitTokens < estimateTokens block.text) :
    ∃ runs, SentencesKept targetTokens block (n + 1)
      ((splitUnits blocks splitTokens targetTokens).filter fun u => u.ordinal = n + 1) runs := by
  rw [splitUnits_of_ordinal here]
  refine ⟨pieces targetTokens block.text, ?_, ?_, pieces_start, pieces_end, pieces_overlap,
    pieces_joined, ?_, ?_, ?_⟩
  · rw [splitBlock, if_neg (by omega)]
  · exact fun run mem => ⟨pieces_ne_nil run mem, pieces_contiguous run mem⟩
  · exact fun pre a b post neighbours => pieces_together neighbours
  · exact fun run mem long => pieces_bounded mem long
  · exact fun u mem => mem_splitBlock mem

/-! ## Texts put together -/

theorem length_intercalate_congr {s t : String} (same : s.length = t.length) :
    ∀ texts : List String, (s.intercalate texts).length = (t.intercalate texts).length
  | [] => by simp
  | [a] => by simp
  | a :: b :: rest => by
      have later := length_intercalate_congr same (b :: rest)
      rw [String.intercalate_cons_cons, String.intercalate_cons_cons]
      simp only [String.length_append]
      omega

/-- Tokens are counted by the length of a text alone. -/
theorem estimateTokens_congr {a b : String} (same : a.length = b.length) :
    estimateTokens a = estimateTokens b := by
  have empty : ∀ {c : String}, c = "" ↔ c.length = 0 := by
    intro c
    rw [← String.length_toList, List.length_eq_zero_iff, String.toList_eq_nil_iff]
  unfold estimateTokens
  simp only [empty, same]

/-- The packing joins with blanks what the body joins with line feeds: as many characters. -/
theorem estimateTokens_body (group : List TextUnit) :
    estimateTokens (" ".intercalate (group.map TextUnit.text)) = estimateTokens (bodyOf group) :=
  estimateTokens_congr (length_intercalate_congr (by decide) _)

/-! ## Packing -/

section

variable {limit : Nat} {units : List TextUnit}

theorem packUnits_ne_nil : ∀ group ∈ packUnits units limit, group ≠ [] := packFrom_ne_nil _ _

/-- The groups put together are the units. -/
theorem packUnits_flatten (units : List TextUnit) (limit : Nat) :
    (packUnits units limit).flatten = units := by
  rw [← united_nothing]
  exact packFrom_united _ _

theorem packUnits_part {group : List TextUnit} (mem : group ∈ packUnits units limit) :
    group <:+: units :=
  packFrom_part (fun _ => List.nil_suffix) units [] group mem

/-- Of two neighbours in a group the second began no section and broke no limit. -/
theorem packUnits_unbroken {init rest : List TextUnit} {unit : TextUnit}
    (mem : init ++ unit :: rest ∈ packUnits units limit) (held : init ≠ []) :
    newSection init unit = false ∧ tooBig limit init unit = false := by
  have short : ∀ g : List TextUnit, ((fun _ => []) g : List TextUnit).length ≤ 0 :=
    fun _ => Nat.le_refl 0
  have fits := packFrom_fits short units (unbroken_nil 0) _ mem init unit rest rfl
    (List.length_pos_iff.mpr held)
  exact Bool.or_eq_false_iff.mp fits

/-- A group of two or more units is within the limit. -/
theorem packUnits_bounded {group : List TextUnit} (mem : group ∈ packUnits units limit)
    (long : 2 ≤ group.length) : estimateTokens (bodyOf group) ≤ limit := by
  rcases List.eq_nil_or_concat group with rfl | ⟨init, last, rfl⟩
  · exact absurd long (by simp)
  rw [List.concat_eq_append] at mem long ⊢
  have held : init ≠ [] := by
    rintro rfl
    exact absurd long (by simp)
  have fits := (packUnits_unbroken mem held).2
  rw [← estimateTokens_body]
  unfold tooBig at fits
  simpa using fits

end

/-! ## The chunks of a document -/

def unitsOf (doc : ParsedDocument) (cfg : ChunkingConfig) : List TextUnit :=
  splitUnits doc.blocks cfg.splitTokens cfg.targetTokens

def parentsOf (doc : ParsedDocument) (cfg : ChunkingConfig) : List (List TextUnit) :=
  packUnits (unitsOf doc cfg) cfg.maxTokens

/-- A child with its parent and the parent's number. -/
structure Member where
  parentIndex : Nat
  parent : List TextUnit
  child : List TextUnit

def members (doc : ParsedDocument) (cfg : ChunkingConfig) : List Member :=
  (parentsOf doc cfg).zipIdx.flatMap fun p =>
    (packUnits p.1 cfg.targetTokens).map fun child =>
      { parentIndex := p.2, parent := p.1, child }

def Member.chunk (title : String) (index : Nat) (m : Member) : Chunk :=
  makeChunk index m.child (bodyOf m.parent)
    (headerFor title ((m.child.head?.map TextUnit.headings).getD []))
    (locatorFor title m.parent) (some m.parentIndex)

/-- A loop that appends what it makes of each element and its place in the list. -/
theorem foldl_numbered {α β : Type} (f : Nat → α → β) : ∀ (l : List α) (made : List β),
    l.foldl (fun made a => made ++ [f made.length a]) made =
      made ++ (l.zipIdx made.length).map fun p => f p.2 p.1
  | [], made => by simp
  | a :: l, made => by
      rw [List.foldl_cons, foldl_numbered f l, List.zipIdx_cons, List.map_cons,
        List.length_append, List.length_singleton, List.append_assoc, List.singleton_append]

/-- **Each chunk is made of one child**, numbered in order. -/
theorem chunkDocument_eq (doc : ParsedDocument) (cfg : ChunkingConfig) :
    chunkDocument doc cfg =
      (members doc cfg).zipIdx.map fun m => m.1.chunk doc.metadata.title m.2 := by
  have loop : chunkDocument doc cfg = (members doc cfg).foldl
      (fun chunks m => chunks ++ [m.chunk doc.metadata.title chunks.length]) [] := by
    unfold members
    rw [List.foldl_flatMap]
    simp only [List.foldl_map]
    rfl
  rw [loop, foldl_numbered fun n (m : Member) => m.chunk doc.metadata.title n]
  rfl

section

variable {doc : ParsedDocument} {cfg : ChunkingConfig}

theorem mem_members {m : Member} :
    m ∈ members doc cfg ↔
      (parentsOf doc cfg)[m.parentIndex]? = some m.parent ∧
        m.child ∈ packUnits m.parent cfg.targetTokens := by
  unfold members
  rw [List.mem_flatMap]
  constructor
  · rintro ⟨⟨p, i⟩, listed, mem⟩
    obtain ⟨child, inside, rfl⟩ := List.mem_map.mp mem
    exact ⟨List.mem_zipIdx_iff_getElem?.mp listed, inside⟩
  · rintro ⟨at_, inside⟩
    exact ⟨(m.parent, m.parentIndex), List.mem_zipIdx_iff_getElem?.mpr at_,
      List.mem_map.mpr ⟨m.child, inside, rfl⟩⟩

theorem mem_chunkDocument {c : Chunk} :
    c ∈ chunkDocument doc cfg ↔
      ∃ (m : Member) (n : Nat), (members doc cfg)[n]? = some m ∧
        c = m.chunk doc.metadata.title n := by
  rw [chunkDocument_eq, List.mem_map]
  constructor
  · rintro ⟨⟨m, n⟩, listed, rfl⟩
    exact ⟨m, n, List.mem_zipIdx_iff_getElem?.mp listed, rfl⟩
  · rintro ⟨m, n, at_, rfl⟩
    exact ⟨(m, n), List.mem_zipIdx_iff_getElem?.mpr at_, rfl⟩

/-- The parent of a chunk, with what the chunk has of it. -/
theorem parent_of_chunk {c : Chunk} (mem : c ∈ chunkDocument doc cfg) :
    ∃ p, (parentsOf doc cfg)[c.parentIndex]? = some p ∧ c.context = bodyOf p ∧
      c.locator = locatorFor doc.metadata.title p ∧
      ∃ child ∈ packUnits p cfg.targetTokens, c.text = bodyOf child := by
  obtain ⟨m, n, at_, rfl⟩ := mem_chunkDocument.mp mem
  obtain ⟨here, inside⟩ := mem_members.mp (List.mem_of_getElem? at_)
  exact ⟨m.parent, here, rfl, rfl, m.child, inside, rfl⟩

/-- Every parent has a child. -/
theorem exists_member {i : Nat} {p : List TextUnit} (at_ : (parentsOf doc cfg)[i]? = some p) :
    ∃ m ∈ members doc cfg, m.parentIndex = i := by
  have held : packUnits p cfg.targetTokens ≠ [] := by
    intro none
    have joined := packUnits_flatten p cfg.targetTokens
    rw [none] at joined
    exact packUnits_ne_nil p (List.mem_of_getElem? at_) joined.symm
  obtain ⟨child, inside⟩ := List.exists_mem_of_ne_nil _ held
  exact ⟨⟨i, p, child⟩, mem_members.mpr ⟨at_, inside⟩, rfl⟩

theorem parentIndex_chunks :
    (chunkDocument doc cfg).map Chunk.parentIndex = (members doc cfg).map Member.parentIndex := by
  have each : (fun c : Chunk => c.parentIndex) ∘
      (fun m : Member × Nat => m.1.chunk doc.metadata.title m.2) = Member.parentIndex ∘ Prod.fst :=
    rfl
  rw [chunkDocument_eq, List.map_map, each, ← List.map_map, List.zipIdx_map_fst]

theorem members_sorted : ((members doc cfg).map Member.parentIndex).Pairwise (· ≤ ·) := by
  unfold members
  generalize parentsOf doc cfg = parents
  have from_ : ∀ (l : List (List TextUnit)) (k : Nat),
      (((l.zipIdx k).flatMap fun p => (packUnits p.1 cfg.targetTokens).map fun child =>
        ({ parentIndex := p.2, parent := p.1, child } : Member)).map
          Member.parentIndex).Pairwise (· ≤ ·) := by
    intro l
    induction l with
    | nil => exact fun _ => .nil
    | cons p l ih =>
        intro k
        rw [List.zipIdx_cons, List.flatMap_cons, List.map_append, List.pairwise_append]
        refine ⟨?_, ih (k + 1), ?_⟩
        · rw [List.map_map, List.pairwise_map]
          exact List.pairwise_of_forall fun _ _ => Nat.le_refl k
        · intro i first j later
          obtain ⟨m, inside, rfl⟩ := List.mem_map.mp first
          obtain ⟨child, -, rfl⟩ := List.mem_map.mp inside
          obtain ⟨m', inside', rfl⟩ := List.mem_map.mp later
          obtain ⟨⟨q, i'⟩, listed, mem⟩ := List.mem_flatMap.mp inside'
          obtain ⟨child', -, rfl⟩ := List.mem_map.mp mem
          have := (List.mem_zipIdx_iff_le_and_getElem?_sub.mp listed).1
          show k ≤ i'
          omega
  exact from_ parents 0

end

/-! ## Paragraph numbers -/

/-- Of two neighbouring units the second is of the same paragraph or of the next. -/
def Follows (u v : TextUnit) : Prop := v.ordinal = u.ordinal ∨ v.ordinal = u.ordinal + 1

theorem splitUnitsFrom_follows {splitTokens targetTokens : Nat} : ∀ (n : Nat) (blocks : List Block),
    (splitUnitsFrom splitTokens targetTokens n blocks).IsChain Follows ∧
      ∀ u ∈ (splitUnitsFrom splitTokens targetTokens n blocks).head?, u.ordinal = n + 1
  | _, [] => ⟨.nil, by simp [splitUnitsFrom]⟩
  | n, block :: blocks => by
      rw [splitUnitsFrom]
      split
      · exact splitUnitsFrom_follows n blocks
      · obtain ⟨chain, head⟩ := splitUnitsFrom_follows (n + 1) blocks
        have numbered : ∀ u ∈ splitBlock splitTokens targetTokens (n + 1) block,
            u.ordinal = n + 1 := fun u mem => (mem_splitBlock mem).1
        refine ⟨List.isChain_append.mpr ⟨?_, chain, ?_⟩, ?_⟩
        · refine (List.pairwise_of_forall_mem_list ?_).isChain
          intro u mu v mv
          exact .inl ((numbered v mv).trans (numbered u mu).symm)
        · intro u last v first
          right
          rw [numbered u (List.mem_of_getLast? last), head v first]
        · intro u first
          rw [List.head?_append_of_ne_nil _ (splitBlock_ne_nil _ _)] at first
          exact numbered u (List.mem_of_mem_head? first)

theorem unitsOf_follows (doc : ParsedDocument) (cfg : ChunkingConfig) :
    (unitsOf doc cfg).IsChain Follows :=
  (splitUnitsFrom_follows 0 doc.blocks).1

/-- The numbers of a run are all from its first to its last. -/
theorem ordinals_interval : ∀ {first : TextUnit} {rest : List TextUnit},
    (first :: rest).IsChain Follows → ∀ n, (∃ u ∈ first :: rest, u.ordinal = n) ↔
      first.ordinal ≤ n ∧ n ≤ (rest.getLast?.getD first).ordinal
  | first, [], _, n => by
      simp only [List.mem_singleton, exists_eq_left, List.getLast?_nil, Option.getD_none]
      omega
  | first, v :: rest, chain, n => by
      obtain ⟨next, later⟩ := List.isChain_cons_cons.mp chain
      have tail := ordinals_interval later n
      have reach := (ordinals_interval later v.ordinal).mp ⟨v, List.mem_cons_self, rfl⟩
      rw [List.getLast?_cons, Option.getD_some]
      constructor
      · rintro ⟨u, mem, rfl⟩
        rcases List.mem_cons.mp mem with rfl | inside
        · rcases next with same | succ <;> omega
        · have bounds := tail.mp ⟨u, inside, rfl⟩
          rcases next with same | succ <;> omega
      · rintro ⟨low, high⟩
        by_cases here : first.ordinal = n
        · exact ⟨first, List.mem_cons_self, here⟩
        · obtain ⟨u, inside, at_⟩ := tail.mpr ⟨by rcases next with same | succ <;> omega, high⟩
          exact ⟨u, List.mem_cons_of_mem _ inside, at_⟩

theorem parent_follows {doc : ParsedDocument} {cfg : ChunkingConfig} {p : List TextUnit}
    (mem : p ∈ parentsOf doc cfg) : p.IsChain Follows :=
  List.IsChain.infix (unitsOf_follows doc cfg) (packUnits_part mem)

/-! ## Locators -/

/-- A locator ends in the paragraphs of its units. -/
theorem locatorFor_eq (title : String) (fullPath : Bool) (first : TextUnit)
    (rest : List TextUnit) :
    ∃ lead, locatorFor title (first :: rest) fullPath =
      lead ++ paragraphs first.ordinal (rest.getLast?.getD first).ordinal := by
  unfold locatorFor
  dsimp only
  generalize whereabouts title fullPath first (rest.getLast?.getD first) = parts
  by_cases none : parts = []
  · exact ⟨"", by rw [none, List.nil_append, String.intercalate_singleton, String.empty_append]⟩
  · refine ⟨" ".intercalate parts ++ " ", ?_⟩
    rw [String.intercalate_append_of_ne_nil none (List.cons_ne_nil _ _),
      String.intercalate_singleton]

/-- What a locator says of its paragraphs, behind the mark. -/
def numbering (first last : Nat) : List Char :=
  Numeral.decimal first ++ if first = last then [] else '–' :: Numeral.decimal last

theorem paragraphs_eq (first last : Nat) :
    (paragraphs first last).toList = '¶' :: numbering first last := by
  have mark : "¶".toList = ['¶'] := by decide
  have dash : DASH.toList = ['–'] := by decide
  have digits : ∀ n : Nat, (toString n).toList = Numeral.decimal n := fun n => by
    simp [Numeral.decimal, Nat.repr]
  unfold paragraphs numbering
  split
  · simp only [String.toList_append, mark, digits, List.append_nil, List.singleton_append]
  · simp only [String.toList_append, mark, dash, digits, List.append_assoc, List.cons_append,
      List.nil_append]

theorem not_mem_decimal {c : Char} (other : c.isDigit = false) (n : Nat) :
    c ∉ Numeral.decimal n := by
  intro mem
  rw [Numeral.isDigit_of_mem_decimal mem] at other
  cases other

theorem mark_not_numbering (first last : Nat) : '¶' ∉ numbering first last := by
  have clear := not_mem_decimal (c := '¶') (by decide)
  unfold numbering
  intro mem
  rcases List.mem_append.mp mem with digits | behind
  · exact clear first digits
  · split at behind
    · cases behind
    · rcases List.mem_cons.mp behind with dash | digits
      · exact absurd dash (by decide)
      · exact clear last digits

theorem numbering_injective {a b c d : Nat} (same : numbering a b = numbering c d) :
    a = c ∧ b = d := by
  have clear := not_mem_decimal (c := '–') (by decide)
  unfold numbering at same
  by_cases one : a = b
  · by_cases other : c = d
    · rw [if_pos one, if_pos other, List.append_nil, List.append_nil] at same
      have := Numeral.decimal_injective same
      omega
    · rw [if_pos one, if_neg other, List.append_nil] at same
      exact absurd (same ▸ List.mem_append_right _ List.mem_cons_self) (clear a)
  · by_cases other : c = d
    · rw [if_neg one, if_pos other, List.append_nil] at same
      exact absurd (same ▸ List.mem_append_right _ List.mem_cons_self) (clear c)
    · rw [if_neg one, if_neg other] at same
      obtain ⟨front, -, back⟩ := (List.append_cons_inj_of_notMem (clear c) (clear d)).mp same.symm
      exact ⟨(Numeral.decimal_injective front).symm, (Numeral.decimal_injective back).symm⟩

/-- **A locator determines the paragraphs it names.** -/
theorem paragraphs_of_locator {lead lead' : String} {a b c d : Nat}
    (same : lead ++ paragraphs a b = lead' ++ paragraphs c d) : a = c ∧ b = d := by
  have texts := congrArg String.toList same
  rw [String.toList_append, String.toList_append, paragraphs_eq, paragraphs_eq] at texts
  rcases List.append_eq_append_iff.mp texts with ⟨more, -, behind⟩ | ⟨more, -, behind⟩
  · cases more with
    | nil => exact numbering_injective (List.cons.inj behind).2
    | cons x more =>
        have inner := (List.cons.inj behind).2
        exact absurd (inner ▸ List.mem_append_right _ List.mem_cons_self) (mark_not_numbering a b)
  · cases more with
    | nil =>
        obtain ⟨first, last⟩ := numbering_injective (List.cons.inj behind).2
        exact ⟨first.symm, last.symm⟩
    | cons x more =>
        have inner := (List.cons.inj behind).2
        exact absurd (inner ▸ List.mem_append_right _ List.mem_cons_self) (mark_not_numbering c d)

/-! ## The whole chunking -/

/-- What the chunks of a document are. -/
structure ChunkingExact (doc : ParsedDocument) (cfg : ChunkingConfig) : Prop where
  parents : (parentsOf doc cfg).flatten = unitsOf doc cfg ∧ ∀ p ∈ parentsOf doc cfg, p ≠ []
  children : ∀ p ∈ parentsOf doc cfg, (packUnits p cfg.targetTokens).flatten = p ∧
    ∀ child ∈ packUnits p cfg.targetTokens, child ≠ []
  /-- one chunk for each child of each parent, in order -/
  made : chunkDocument doc cfg =
    (members doc cfg).zipIdx.map fun m => m.1.chunk doc.metadata.title m.2
  indices : (chunkDocument doc cfg).map Chunk.index = List.range (chunkDocument doc cfg).length
  parentOrder : ((chunkDocument doc cfg).map Chunk.parentIndex).Pairwise (· ≤ ·)
  parentIndices : ∀ i, i ∈ (chunkDocument doc cfg).map Chunk.parentIndex ↔
    i < (parentsOf doc cfg).length
  /-- a parent index stands for one parent: its text, locator and children are those -/
  identity : ∀ c ∈ chunkDocument doc cfg, ∃ p, (parentsOf doc cfg)[c.parentIndex]? = some p ∧
    c.context = bodyOf p ∧ c.locator = locatorFor doc.metadata.title p ∧
    ∃ child ∈ packUnits p cfg.targetTokens, c.text = bodyOf child
  inside : ∀ c ∈ chunkDocument doc cfg, c.text.toList <:+: c.context.toList
  parentBound : ∀ p ∈ parentsOf doc cfg, 2 ≤ p.length →
    estimateTokens (bodyOf p) ≤ cfg.maxTokens
  childBound : ∀ p ∈ parentsOf doc cfg, ∀ child ∈ packUnits p cfg.targetTokens,
    2 ≤ child.length → estimateTokens (bodyOf child) ≤ cfg.targetTokens
  /-- the paragraphs a locator names are those of the parent -/
  ranges : ∀ p ∈ parentsOf doc cfg, ∃ lead first last,
    locatorFor doc.metadata.title p = lead ++ paragraphs first last ∧
      ∀ n, (∃ u ∈ p, u.ordinal = n) ↔ first ≤ n ∧ n ≤ last

/-- **Chunking loses, duplicates and mislabels nothing.** -/
theorem chunking_exact (doc : ParsedDocument) (cfg : ChunkingConfig) : ChunkingExact doc cfg where
  parents := ⟨packUnits_flatten _ _, packUnits_ne_nil⟩
  children := fun p _ => ⟨packUnits_flatten p _, packUnits_ne_nil⟩
  made := chunkDocument_eq doc cfg
  indices := by
    have each : (fun c : Chunk => c.index) ∘
        (fun m : Member × Nat => m.1.chunk doc.metadata.title m.2) = Prod.snd := rfl
    rw [chunkDocument_eq, List.map_map, each, List.length_map, List.length_zipIdx,
      List.zipIdx_map_snd, List.range_eq_range']
  parentOrder := parentIndex_chunks ▸ members_sorted
  parentIndices := by
    intro i
    rw [parentIndex_chunks, List.mem_map]
    constructor
    · rintro ⟨m, mem, rfl⟩
      exact (List.getElem?_eq_some_iff.mp (mem_members.mp mem).1).1
    · intro less
      exact exists_member (List.getElem?_eq_getElem less)
  identity := fun _ mem => parent_of_chunk mem
  inside := by
    intro c mem
    obtain ⟨p, -, context, -, child, inside, text⟩ := parent_of_chunk mem
    rw [context, text]
    exact Text.intercalate_part ((packUnits_part inside).map TextUnit.text)
  parentBound := fun _ mem long => packUnits_bounded mem long
  childBound := fun _ _ _ inside long => packUnits_bounded inside long
  ranges := by
    intro p mem
    obtain ⟨first, rest, rfl⟩ := List.exists_cons_of_ne_nil (packUnits_ne_nil p mem)
    obtain ⟨lead, eq⟩ := locatorFor_eq doc.metadata.title true first rest
    exact ⟨lead, _, _, eq, ordinals_interval (parent_follows mem)⟩

/-! ## Parents a locator does not tell apart -/

section

variable {doc : ParsedDocument} {cfg : ChunkingConfig}

/-- Both parents consist of pieces of one paragraph, which is then an oversized one. -/
def PiecesOfOne (doc : ParsedDocument) (cfg : ChunkingConfig) (i j : Nat) : Prop :=
  ∃ n block, (contentBlocks doc.blocks)[n]? = some block ∧
    cfg.splitTokens < estimateTokens block.text ∧
    ∀ p, ((parentsOf doc cfg)[i]? = some p ∨ (parentsOf doc cfg)[j]? = some p) →
      ∀ u ∈ p, u ∈ splitBlock cfg.splitTokens cfg.targetTokens (n + 1) block

theorem PiecesOfOne.symm {i j : Nat} (one : PiecesOfOne doc cfg i j) : PiecesOfOne doc cfg j i := by
  obtain ⟨n, block, here, oversized, all⟩ := one
  exact ⟨n, block, here, oversized, fun p at_ => all p at_.symm⟩

/-- Numbers do not fall from one unit to a later one. -/
theorem unitsOf_sorted : (unitsOf doc cfg).Pairwise fun u v => u.ordinal ≤ v.ordinal := by
  have chain : (unitsOf doc cfg).IsChain fun u v => u.ordinal ≤ v.ordinal := by
    refine (unitsOf_follows doc cfg).imp ?_
    rintro u v (same | succ) <;> omega
  have trans : Trans (fun u v : TextUnit => u.ordinal ≤ v.ordinal)
      (fun u v : TextUnit => u.ordinal ≤ v.ordinal) fun u v : TextUnit => u.ordinal ≤ v.ordinal :=
    ⟨fun ab bc => Nat.le_trans ab bc⟩
  exact List.isChain_iff_pairwise.mp chain

/-- Two parents, in order, among all. -/
theorem parents_pair {i j : Nat} {p q : List TextUnit} (less : i < j)
    (first : (parentsOf doc cfg)[i]? = some p) (second : (parentsOf doc cfg)[j]? = some q) :
    (p ++ q).Sublist (unitsOf doc cfg) := by
  obtain ⟨bound, at_⟩ := List.getElem?_eq_some_iff.mp first
  have split : (parentsOf doc cfg).drop i = p :: (parentsOf doc cfg).drop (i + 1) := by
    rw [← at_]
    exact List.drop_eq_getElem_cons bound
  have later : q ∈ (parentsOf doc cfg).drop (i + 1) := by
    have at_' : ((parentsOf doc cfg).drop (i + 1))[j - (i + 1)]? = some q := by
      rw [List.getElem?_drop, ← second]
      congr 1
      omega
    exact List.mem_of_getElem? at_'
  have whole : unitsOf doc cfg = ((parentsOf doc cfg).take i).flatten ++
      (p ++ ((parentsOf doc cfg).drop (i + 1)).flatten) := by
    rw [← List.flatten_cons, ← split, ← List.flatten_append, List.take_append_drop]
    exact (packUnits_flatten _ _).symm
  rw [whole]
  exact ((List.sublist_flatten_of_mem later).append_left p).trans (List.sublist_append_right _ _)

/-- A locator depends on the numbers, pages and headings at the ends of its parent. -/
theorem locatorFor_congr {title : String} {p q : List TextUnit} (held : p ≠ []) (held' : q ≠ [])
    (same : ∀ u ∈ p ++ q, ∀ v ∈ p ++ q,
      u.ordinal = v.ordinal ∧ u.page = v.page ∧ u.headings = v.headings) :
    locatorFor title p = locatorFor title q := by
  obtain ⟨u, rest, rfl⟩ := List.exists_cons_of_ne_nil held
  obtain ⟨v, rest', rfl⟩ := List.exists_cons_of_ne_nil held'
  have ends : ∀ (w : TextUnit) (ws : List TextUnit), ws.getLast?.getD w ∈ w :: ws := by
    intro w ws
    cases last : ws.getLast? with
    | none => exact List.mem_cons_self
    | some x => exact List.mem_cons_of_mem _ (List.mem_of_getLast? last)
  have firsts := same u (by simp) v (by simp)
  have lasts := same _ (List.mem_append_left _ (ends u rest)) _
    (List.mem_append_right _ (ends v rest'))
  unfold locatorFor whereabouts
  dsimp only
  rw [firsts.1, firsts.2.1, firsts.2.2, lasts.1, lasts.2.1]

/-- Parents in order have one locator exactly when they are pieces of one paragraph. -/
theorem locatorFor_eq_iff {i j : Nat} {p q : List TextUnit} (less : i < j)
    (first : (parentsOf doc cfg)[i]? = some p) (second : (parentsOf doc cfg)[j]? = some q) :
    locatorFor doc.metadata.title p = locatorFor doc.metadata.title q ↔
      PiecesOfOne doc cfg i j := by
  have memp := List.mem_of_getElem? first
  have memq := List.mem_of_getElem? second
  have pair := parents_pair less first second
  constructor
  · intro same
    obtain ⟨u, rest, rfl⟩ := List.exists_cons_of_ne_nil (packUnits_ne_nil p memp)
    obtain ⟨v, rest', rfl⟩ := List.exists_cons_of_ne_nil (packUnits_ne_nil q memq)
    obtain ⟨lead, eq⟩ := locatorFor_eq doc.metadata.title true u rest
    obtain ⟨lead', eq'⟩ := locatorFor_eq doc.metadata.title true v rest'
    obtain ⟨starts, ends⟩ := paragraphs_of_locator (eq.symm.trans (same.trans eq'))
    -- the first parent ends before the second begins, so both are of one number
    have order := unitsOf_sorted.sublist pair
    have bounds := ordinals_interval (parent_follows memp)
    have bounds' := ordinals_interval (parent_follows memq)
    have last_mem := (bounds (rest.getLast?.getD u).ordinal).mpr
      ⟨((bounds u.ordinal).mp ⟨u, List.mem_cons_self, rfl⟩).2, Nat.le_refl _⟩
    obtain ⟨w, inside, at_⟩ := last_mem
    have before := (List.pairwise_append.mp order).2.2 w inside v List.mem_cons_self
    have all : ∀ x, (x ∈ u :: rest ∨ x ∈ v :: rest') → x.ordinal = u.ordinal := by
      rintro x (here | there)
      · have := (bounds x.ordinal).mp ⟨x, here, rfl⟩
        omega
      · have := (bounds' x.ordinal).mp ⟨x, there, rfl⟩
        omega
    -- that number is one of a block
    have unit : ∀ x, (x ∈ u :: rest ∨ x ∈ v :: rest') → x ∈ unitsOf doc cfg := by
      intro x mem
      exact pair.subset (List.mem_append.mpr mem)
    obtain ⟨n, block, here, piece⟩ := mem_splitUnits.mp (unit u (.inl List.mem_cons_self))
    have number := (mem_splitBlock piece).1
    have inner : ∀ x, (x ∈ u :: rest ∨ x ∈ v :: rest') →
        x ∈ splitBlock cfg.splitTokens cfg.targetTokens (n + 1) block := by
      intro x mem
      rw [← splitUnits_of_ordinal here, List.mem_filter]
      exact ⟨unit x mem, decide_eq_true ((all x mem).trans number)⟩
    refine ⟨n, block, here, ?_, ?_⟩
    · by_contra short
      have both : ((u :: rest ++ v :: rest').filter fun x => x.ordinal = n + 1).Sublist
          (splitBlock cfg.splitTokens cfg.targetTokens (n + 1) block) := by
        rw [← splitUnits_of_ordinal here]
        exact pair.filter _
      have full : (u :: rest ++ v :: rest').filter (fun x => x.ordinal = n + 1) =
          u :: rest ++ v :: rest' := by
        rw [List.filter_eq_self]
        intro x mem
        exact decide_eq_true ((all x (List.mem_append.mp mem)).trans number)
      have lengths := both.length_le
      rw [full, splitBlock, if_pos (by omega)] at lengths
      simp at lengths
    · rintro r (at_ | at_) x mem
      · cases Option.some.inj (first.symm.trans at_)
        exact inner x (.inl mem)
      · cases Option.some.inj (second.symm.trans at_)
        exact inner x (.inr mem)
  · rintro ⟨n, block, here, -, all⟩
    have data : ∀ x ∈ p ++ q, x.ordinal = n + 1 ∧ x.page = block.page ∧
        x.headings = block.headings := by
      intro x mem
      rcases List.mem_append.mp mem with left | right
      · exact mem_splitBlock (all p (.inl first) x left)
      · exact mem_splitBlock (all q (.inr second) x right)
    apply locatorFor_congr (packUnits_ne_nil p memp) (packUnits_ne_nil q memq)
    intro u mu v mv
    obtain ⟨ordinal, page, headings⟩ := data u mu
    obtain ⟨ordinal', page', headings'⟩ := data v mv
    exact ⟨ordinal.trans ordinal'.symm, page.trans page'.symm, headings.trans headings'.symm⟩

end

/-- A stable reference within a document version is the same exactly when the locator is. -/
theorem stableRef_eq_iff {r s : RetrievedChunk} (key : r.docKey = s.docKey)
    (version : r.version = s.version) : r.stableRef = s.stableRef ↔ r.locator = s.locator := by
  unfold RetrievedChunk.stableRef
  rw [key, version, String.append_right_inj]

/-- **Two parents have one locator, and one stable reference, exactly when both consist of
pieces of one oversized paragraph.** -/
theorem locators_apart_iff (doc : ParsedDocument) (cfg : ChunkingConfig) (c d : Chunk)
    (mem : c ∈ chunkDocument doc cfg) (mem' : d ∈ chunkDocument doc cfg)
    (apart : c.parentIndex ≠ d.parentIndex) :
    (c.locator = d.locator ↔ PiecesOfOne doc cfg c.parentIndex d.parentIndex) ∧
      ∀ r s : RetrievedChunk, r.docKey = s.docKey → r.version = s.version →
        r.locator = c.locator → s.locator = d.locator →
        (r.stableRef = s.stableRef ↔ PiecesOfOne doc cfg c.parentIndex d.parentIndex) := by
  have same : c.locator = d.locator ↔ PiecesOfOne doc cfg c.parentIndex d.parentIndex := by
    obtain ⟨p, first, -, eq, -⟩ := parent_of_chunk mem
    obtain ⟨q, second, -, eq', -⟩ := parent_of_chunk mem'
    rw [eq, eq']
    rcases Nat.lt_or_gt_of_ne apart with less | more
    · exact locatorFor_eq_iff less first second
    · constructor
      · intro same
        exact ((locatorFor_eq_iff more second first).mp same.symm).symm
      · intro one
        exact ((locatorFor_eq_iff more second first).mpr one.symm).symm
  refine ⟨same, ?_⟩
  intro r s key version locator locator'
  rw [stableRef_eq_iff key version, locator, locator']
  exact same

/-! ## Poles -/

/-- A document of one paragraph with three sentences. -/
def poleDocument : ParsedDocument where
  metadata :=
    { documentId := "KB-IT-001"
      title := "T"
      department := "it_ops"
      classification := .internal
      updatedAt := "2026-01-01" }
  blocks := [{ text := "Aa. Bb. Cc.", kind := .paragraph }]
  mimeType := "text/markdown"
  sourcePath := "t.md"

def poleConfig : ChunkingConfig := { targetTokens := 1, maxTokens := 1, splitTokens := 1 }

theorem sentences_kept_pole :
    ∃ runs, SentencesKept 1 { text := "Aa. Bb. Cc.", kind := .paragraph } 1
    ((splitUnits poleDocument.blocks 1 1).filter fun u => u.ordinal = 1) runs :=
  sentences_kept poleDocument.blocks 1 1 0 _ rfl (by decide)

/-- Three sections of one paragraph. -/
theorem poleChunks_found {i : Nat} (few : i < 3) :
    ∃ c ∈ chunkDocument poleDocument poleConfig, c.parentIndex = i ∧ c.locator = "¶1" := by
  have listed : (chunkDocument poleDocument poleConfig).map (fun c => (c.parentIndex, c.locator)) =
      (List.range 3).map fun i => (i, "¶1") := by decide +kernel
  have mem : (i, "¶1") ∈ (List.range 3).map fun i => (i, "¶1") :=
    List.mem_map.mpr ⟨i, List.mem_range.mpr few, rfl⟩
  rw [← listed] at mem
  obtain ⟨c, there, eq⟩ := List.mem_map.mp mem
  exact ⟨c, there, (Prod.mk.inj eq).1, (Prod.mk.inj eq).2⟩

theorem locators_apart_iff_pole :
    ∃ c ∈ chunkDocument poleDocument poleConfig, ∃ d ∈ chunkDocument poleDocument poleConfig,
      c.parentIndex ≠ d.parentIndex ∧
        (c.locator = d.locator ↔
          PiecesOfOne poleDocument poleConfig c.parentIndex d.parentIndex) := by
  obtain ⟨c, mem, index, -⟩ := poleChunks_found (i := 0) (by decide)
  obtain ⟨d, mem', index', -⟩ := poleChunks_found (i := 1) (by decide)
  have apart : c.parentIndex ≠ d.parentIndex := by omega
  exact ⟨c, mem, d, mem', apart,
    (locators_apart_iff poleDocument poleConfig c d mem mem' apart).1⟩

/-- Two sections of one paragraph have the same locator. -/
theorem one_locator_two_sections :
    ¬∀ c ∈ chunkDocument poleDocument poleConfig, ∀ d ∈ chunkDocument poleDocument poleConfig,
      c.parentIndex ≠ d.parentIndex → c.locator ≠ d.locator := by
  intro apart
  obtain ⟨c, mem, index, locator⟩ := poleChunks_found (i := 0) (by decide)
  obtain ⟨d, mem', index', locator'⟩ := poleChunks_found (i := 1) (by decide)
  exact apart c mem d mem' (by omega) (locator.trans locator'.symm)

end OpsAssist.Chunking
