/-
# OpsAssist.Knowledge.Unchanged -- when equal hashes mean equal chunks

`ingest_file` keeps the indexed chunks of a document whose hash has not changed.  The hash
covers the texts and headings of the blocks, and the chunks show more of them: which are
headings, and the pages.  `unchanged_sound_iff` says of which documents the hash says
enough.

Pole: `heading_or_paragraph`, two files of one hash of which only one has a first paragraph.
-/
import OpsAssist.Knowledge.BlockBuilder
import OpsAssist.Knowledge.Chunking
import OpsAssist.Knowledge.Content

namespace OpsAssist.Chunking

set_option autoImplicit false

open Theory Ingest

/-- `chunker_id` -/
def ChunkingConfig.chunkerId (cfg : ChunkingConfig) : String :=
  "parent_child/v2:" ++ toString cfg.targetTokens ++ "/" ++ toString cfg.maxTokens ++ "/" ++
    toString cfg.splitTokens

/-- The paragraphs and items of a document as its chunks show them. -/
def paragraphsOf (doc : ParsedDocument) : List (String × Option Nat × List String) :=
  (contentBlocks doc.blocks).map fun b => (b.text, b.page, b.headings)

/-! ## Chunks come from paragraphs -/

/-- The block a paragraph is split as. -/
def paragraphBlock (p : String × Option Nat × List String) : Block :=
  { text := p.1, kind := .paragraph, page := p.2.1, headings := p.2.2 }

/-- Kinds and levels do not matter to the splitting. -/
theorem unitsOf_eq (doc : ParsedDocument) (cfg : ChunkingConfig) :
    unitsOf doc cfg = ((paragraphsOf doc).zipIdx 1).flatMap fun p =>
      splitBlock cfg.splitTokens cfg.targetTokens p.2 (paragraphBlock p.1) := by
  unfold unitsOf splitUnits paragraphsOf
  rw [splitUnitsFrom_eq, List.zipIdx_map, List.flatMap_map]
  rfl

/-- Documents of one title and the same paragraphs have the same chunks. -/
theorem chunkDocument_congr {doc other : ParsedDocument} (cfg : ChunkingConfig)
    (title : doc.metadata.title = other.metadata.title)
    (same : paragraphsOf doc = paragraphsOf other) :
    chunkDocument doc cfg = chunkDocument other cfg := by
  have units : unitsOf doc cfg = unitsOf other cfg := by
    rw [unitsOf_eq, unitsOf_eq, same]
  have parts : members doc cfg = members other cfg := by
    unfold members parentsOf
    rw [units]
  rw [chunkDocument_eq, chunkDocument_eq, parts, title]

/-! ## A chunk for each paragraph -/

/-- The finest chunking that leaves paragraphs of so many tokens whole. -/
def finest (splitTokens : Nat) : ChunkingConfig := { targetTokens := 0, maxTokens := 0, splitTokens }

/-- With no room at all every unit is a group of its own. -/
theorem packUnits_zero (units : List TextUnit) : packUnits units 0 = units.map fun u => [u] := by
  refine packFrom_each ?_ units
  intro current unit held
  obtain ⟨first, rest, rfl⟩ := List.exists_cons_of_ne_nil held
  have long : tooBig 0 (first :: rest) unit = true := by
    have joined : " ".intercalate ((first :: rest ++ [unit]).map TextUnit.text) ≠ "" := by
      intro empty
      rw [List.cons_append, List.map_cons, String.intercalate_cons_of_ne_nil (by simp)] at empty
      have size := congrArg String.length empty
      simp at size
    rw [tooBig, estimateTokens, if_neg joined]
    simp
  rw [long, Bool.or_true]

/-- The chunks of the finest chunking are the paragraphs. -/
theorem chunkDocument_finest {doc : ParsedDocument} {n : Nat}
    (whole : ∀ p ∈ paragraphsOf doc, estimateTokens p.1 ≤ n) :
    (chunkDocument doc (finest n)).map (fun c => (c.text, c.pageStart, c.headings)) =
      paragraphsOf doc := by
  have units : unitsOf doc (finest n) = ((paragraphsOf doc).zipIdx 1).map fun p =>
      unitOf (paragraphBlock p.1) p.2 p.1.1 := by
    rw [unitsOf_eq, List.map_eq_flatMap]
    apply List.flatMap_congr
    intro p mem
    have fits := whole p.1 (List.fst_mem_of_mem_zipIdx mem)
    rw [splitBlock, if_pos]
    · rfl
    · exact fits
  have parts : members doc (finest n) = (unitsOf doc (finest n)).zipIdx.map fun u =>
      { parentIndex := u.2, parent := [u.1], child := [u.1] } := by
    unfold members parentsOf
    rw [show (finest n).maxTokens = 0 from rfl, show (finest n).targetTokens = 0 from rfl,
      packUnits_zero, List.zipIdx_map, List.flatMap_map, List.map_eq_flatMap]
    apply List.flatMap_congr
    intro u _
    rw [packUnits_zero]
    rfl
  have shown : (fun c : Chunk => (c.text, c.pageStart, c.headings)) ∘
      (fun m : Member × Nat => m.1.chunk doc.metadata.title m.2) =
        (fun m : Member => (bodyOf m.child, m.child.head?.bind TextUnit.page,
          (m.child.head?.map TextUnit.headings).getD [])) ∘ Prod.fst := rfl
  have unit : (fun m : Member => (bodyOf m.child, m.child.head?.bind TextUnit.page,
          (m.child.head?.map TextUnit.headings).getD [])) ∘
      (fun u : TextUnit × Nat => (⟨u.2, [u.1], [u.1]⟩ : Member)) =
        (fun u : TextUnit => (u.text, u.page, u.headings)) ∘ Prod.fst := by
    funext u
    simp [bodyOf]
  rw [chunkDocument_eq, List.map_map, shown, ← List.map_map, List.zipIdx_map_fst, parts,
    List.map_map, unit, ← List.map_map, List.zipIdx_map_fst, units, List.map_map]
  exact List.zipIdx_map_fst 1 _

theorem exists_bound (texts : List String) : ∃ n, ∀ t ∈ texts, estimateTokens t ≤ n := by
  induction texts with
  | nil => exact ⟨0, nofun⟩
  | cons t texts ih =>
      obtain ⟨n, bound⟩ := ih
      refine ⟨max (estimateTokens t) n, ?_⟩
      intro s mem
      rcases List.mem_cons.mp mem with rfl | inside
      · exact Nat.le_max_left _ _
      · exact Nat.le_trans (bound s inside) (Nat.le_max_right _ _)

/-! ## What the hash says -/

theorem contentHash_congr (host : Host) {doc other : ParsedDocument} (chunker : String)
    (same : SameContent doc other) :
    contentHash host doc chunker = contentHash host other chunker := by
  have values : doc.blocks.map blockValue = other.blocks.map blockValue := by
    have split : blockValue = (fun b : String × List String =>
        .arr [.str b.1, .arr (b.2.map .str)]) ∘ fun b : Block => (b.text, b.headings) := rfl
    rw [split, ← List.map_map, same.blocks, List.map_map]
  rw [contentHash, contentHash, contentPayload, contentPayload, same.metadata, values]

/-- **Equal hashes mean equal chunks exactly for documents whose paragraphs have the same
texts, headings and pages.** -/
theorem unchanged_sound_iff {host : Host} (free : CollisionFree host)
    (doc other : ParsedDocument) :
    (∀ cfg : ChunkingConfig,
        contentHash host doc cfg.chunkerId = contentHash host other cfg.chunkerId →
        chunkDocument doc cfg = chunkDocument other cfg) ↔
      (SameContent doc other → paragraphsOf doc = paragraphsOf other) := by
  constructor
  · intro sound same
    obtain ⟨n, bound⟩ := exists_bound
      ((paragraphsOf doc).map Prod.fst ++ (paragraphsOf other).map Prod.fst)
    have left : ∀ p ∈ paragraphsOf doc, estimateTokens p.1 ≤ n := fun p mem =>
      bound p.1 (List.mem_append_left _ (List.mem_map_of_mem mem))
    have right : ∀ p ∈ paragraphsOf other, estimateTokens p.1 ≤ n := fun p mem =>
      bound p.1 (List.mem_append_right _ (List.mem_map_of_mem mem))
    have chunks := sound (finest n) (contentHash_congr host _ same)
    rw [← chunkDocument_finest left, chunks, chunkDocument_finest right]
  · intro paragraphs cfg hashes
    have same := contentHash_eq free hashes
    exact chunkDocument_congr cfg (congrArg DocumentMeta.title same.metadata) (paragraphs same)

/-! ## Poles -/

/-- A file whose blocks come from these lines. -/
def poleFile (lines : List String) : ParsedDocument where
  metadata :=
    { documentId := "KB-IT-001"
      title := "T"
      department := "it_ops"
      classification := .internal
      updatedAt := "2026-01-01" }
  blocks := blocksFromLines lines
  mimeType := "text/markdown"
  sourcePath := "t.md"

/-- `A` is a heading and a paragraph below it, or a heading twice. -/
theorem heading_or_paragraph :
    ∃ cfg : ChunkingConfig,
      contentHash .plain (poleFile ["# A", "A", "", "B"]) cfg.chunkerId =
          contentHash .plain (poleFile ["# A", "# A", "", "B"]) cfg.chunkerId ∧
        chunkDocument (poleFile ["# A", "A", "", "B"]) cfg ≠
          chunkDocument (poleFile ["# A", "# A", "", "B"]) cfg := by
  refine ⟨{}, contentHash_congr _ _ ⟨rfl, by decide +kernel⟩, ?_⟩
  intro same
  have texts := congrArg (List.map Chunk.locator) same
  revert texts
  decide +kernel

/-- The level of a heading whose path stays the same does not show. -/
theorem unchanged_sound_pole :
    contentHash .plain (poleFile ["# A", "B"]) (finest 8).chunkerId =
        contentHash .plain (poleFile ["## A", "B"]) (finest 8).chunkerId ∧
      chunkDocument (poleFile ["# A", "B"]) (finest 8) =
        chunkDocument (poleFile ["## A", "B"]) (finest 8) := by
  have same : contentHash .plain (poleFile ["# A", "B"]) (finest 8).chunkerId =
      contentHash .plain (poleFile ["## A", "B"]) (finest 8).chunkerId :=
    contentHash_congr _ _ ⟨rfl, by decide +kernel⟩
  refine ⟨same, (unchanged_sound_iff plain_collisionFree _ _).mpr (fun _ => ?_) _ same⟩
  decide +kernel

end OpsAssist.Chunking
