/-
# OpsAssist.Knowledge.Content -- the digest of a document, and what it pins

`content_hash` digests the metadata, the text and the chunking configuration.
`contentHash_eq` says what documents of one digest have in common; the kinds, pages and
levels of their blocks are not part of it.
-/
import OpsAssist.Knowledge.Ingest
import OpsAssist.Policy.AuditRecord
import OpsAssist.Theory.JsonSpaced

namespace OpsAssist.Ingest

set_option autoImplicit false

open Theory

def classificationText : Classification → String
  | .public_ => "public"
  | .internal => "internal"
  | .confidential => "confidential"

theorem classificationText_injective : ∀ {c d : Classification},
    classificationText c = classificationText d → c = d := by
  intro c d
  cases c <;> cases d <;> decide

/-- `meta.model_dump(mode="json")` -/
def metaValue (m : DocumentMeta) : Value :=
  .obj [("document_id", .str m.documentId),
    ("title", .str m.title),
    ("department", .str m.department),
    ("classification", .str (classificationText m.classification)),
    ("updated_at", .str m.updatedAt),
    ("source", optionalValue m.source)]

def blockValue (b : Block) : Value := .arr [.str b.text, .arr (b.headings.map .str)]

def contentPayload (doc : ParsedDocument) (chunker : String) : Value :=
  .obj [("meta", metaValue doc.metadata),
    ("blocks", .arr (doc.blocks.map blockValue)),
    ("chunker", .str chunker)]

/-- `json.dumps(value, sort_keys=True)` -/
def dumps (v : Value) : String := String.ofList (v.canon.spaced Number.text)

/-- `content_hash` -/
def contentHash (host : Host) (doc : ParsedDocument) (chunker : String) : String :=
  host.sha256 (dumps (contentPayload doc chunker))

/-- The part of a document its digest covers. -/
structure SameContent (doc other : ParsedDocument) : Prop where
  metadata : doc.metadata = other.metadata
  blocks : doc.blocks.map (fun b => (b.text, b.headings)) =
    other.blocks.map fun b => (b.text, b.headings)

/-! ## What the digest pins -/

theorem dumps_eq {a b : Value} (same : dumps a = dumps b) : a.canon = b.canon := by
  have texts := Json.spaced_injective Number.numberText (String.ofList_injective same)
  exact Json.text_injective Number.numberText texts

theorem canonItems_str (l : List String) :
    Json.canonItems (l.map (Json.str (ν := Number))) = l.map .str := by
  induction l with
  | nil => rfl
  | cons s l ih =>
      simp only [List.map_cons, Json.canonItems, Json.canon, ih]

theorem canon_blockValue (b : Block) : (blockValue b).canon = blockValue b := by
  simp only [blockValue, Json.canon, Json.canonItems, canonItems_str]

theorem canonItems_blocks (blocks : List Block) :
    Json.canonItems (blocks.map blockValue) = blocks.map blockValue := by
  induction blocks with
  | nil => rfl
  | cons b blocks ih =>
      simp only [List.map_cons, Json.canonItems, canon_blockValue, ih]

theorem canon_contentPayload (doc : ParsedDocument) (chunker : String) :
    (contentPayload doc chunker).canon =
      .obj [("blocks", .arr (doc.blocks.map blockValue)),
        ("chunker", .str chunker),
        ("meta", .obj [("classification", .str (classificationText doc.metadata.classification)),
          ("department", .str doc.metadata.department),
          ("document_id", .str doc.metadata.documentId),
          ("source", optionalValue doc.metadata.source),
          ("title", .str doc.metadata.title),
          ("updated_at", .str doc.metadata.updatedAt)])] := by
  simp +decide only [contentPayload, metaValue, Json.canon, Json.canonMembers, Json.addMember,
    canon_optionalValue, canonItems_blocks, if_true, if_false]

theorem blockValue_eq {b c : Block} (same : blockValue b = blockValue c) :
    (b.text, b.headings) = (c.text, c.headings) := by
  simp only [blockValue, Json.arr.injEq, List.cons.injEq, Json.str.injEq, and_true] at same
  obtain ⟨text, headings⟩ := same
  have strings := List.map_injective_iff.mpr (fun _ _ same => Json.str.inj same) headings
  rw [text, strings]

theorem blocks_eq : ∀ {l m : List Block}, l.map blockValue = m.map blockValue →
    l.map (fun b => (b.text, b.headings)) = m.map fun b => (b.text, b.headings)
  | [], [], _ => rfl
  | [], _ :: _, same => nomatch same
  | _ :: _, [], same => nomatch same
  | b :: l, c :: m, same => by
      rw [List.map_cons, List.map_cons] at same
      obtain ⟨first, rest⟩ := List.cons.inj same
      rw [List.map_cons, List.map_cons, blockValue_eq first, blocks_eq rest]

/-- **Documents of one digest have the same metadata and text.** -/
theorem contentHash_eq {host : Host} (free : CollisionFree host) {doc other : ParsedDocument}
    {chunker : String} (same : contentHash host doc chunker = contentHash host other chunker) :
    SameContent doc other := by
  have payloads := dumps_eq (free _ _ same)
  rw [canon_contentPayload, canon_contentPayload] at payloads
  simp only [Json.obj.injEq, List.cons.injEq, Prod.mk.injEq, Json.arr.injEq, Json.str.injEq,
    true_and, and_true] at payloads
  obtain ⟨blocks, classification, department, documentId, source, title, updatedAt⟩ := payloads
  refine ⟨?_, blocks_eq blocks⟩
  obtain ⟨⟨id, t, d, c, u, src⟩, _, _, _⟩ := doc
  obtain ⟨⟨id', t', d', c', u', src'⟩, _, _, _⟩ := other
  simp only [DocumentMeta.mk.injEq]
  exact ⟨documentId, title, department, classificationText_injective classification, updatedAt,
    optionalValue_injective source⟩

/-! ## What `ingest_file` makes of a file -/

/-- The configuration of the index. -/
structure Indexer where
  host : Host
  modelId : String
  chunkerId : String
  /-- `chunk_document` -/
  chunkDocument : ParsedDocument → List ChunkText

/-- What a run that has read a document brings to its transactions. -/
def Indexer.ingestion (x : Indexer) (doc : ParsedDocument) : Ingestion where
  metadata := doc.metadata
  mimeType := doc.mimeType
  sourcePath := doc.sourcePath
  digest := contentHash x.host doc x.chunkerId
  modelId := x.modelId
  chunkerId := x.chunkerId
  chunks := x.chunkDocument doc

end OpsAssist.Ingest
