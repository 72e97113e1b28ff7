/-
# OpsAssist.Knowledge.Ingest -- indexing and removing documents, statement by statement

Any number of sessions run `ingest_file` and `deactivate` against the three tables.  One step
is one statement of one session, the start of an UPDATE or its end, a commit or an abort; what
a session has done shows in the tables when it commits.
-/
import OpsAssist.Host
import OpsAssist.Knowledge.Parsing
import OpsAssist.Knowledge.Tables
import OpsAssist.Theory.Run
import OpsAssist.Theory.Transactions

namespace OpsAssist.Ingest

set_option autoImplicit false

open Theory

/-! ## What a run brings -/

/-- One chunk a document is cut into, without what is only stored for display or search. -/
structure ChunkText where
  index : Nat
  parentIndex : Nat
  locator : String
  text : String
  context : String
deriving DecidableEq

/-- What a run of `ingest_file` has made of its file when its transactions start. -/
structure Ingestion where
  metadata : DocumentMeta
  mimeType : String
  sourcePath : String
  digest : String
  modelId : String
  chunkerId : String
  chunks : List ChunkText
deriving DecidableEq

/-- The table for a classification. -/
def tableFor : Classification → ChunkTable
  | .confidential => .confidentialChunks
  | _ => .chunks

namespace Ingestion

variable (r : Ingestion)

def docKey : String := r.metadata.documentId

def table : ChunkTable := tableFor r.metadata.classification

/-- The active version has this content. -/
def unchanged (active : Document) : Bool :=
  active.contentSha256 == r.digest && active.embeddingModel == r.modelId

/-- The row of a new version. -/
def document (id : Uuid) (version : Nat) : Document where
  id := id
  docKey := r.docKey
  version := version
  title := r.metadata.title
  department := r.metadata.department
  classification := r.metadata.classification
  mimeType := r.mimeType
  sourcePath := r.sourcePath
  contentSha256 := r.digest
  docUpdatedAt := r.metadata.updatedAt
  embeddingModel := r.modelId
  chunker := some r.chunkerId
  chunkCount := r.chunks.length

def chunkRow (id : Uuid) (version : Nat) (c : ChunkText) : Chunk where
  documentId := id
  docKey := r.docKey
  version := version
  department := r.metadata.department
  classification := r.metadata.classification
  chunkIndex := c.index
  parentIndex := some c.parentIndex
  locator := c.locator
  content := c.text
  context := if c.context = c.text then none else some c.context
  embeddingModel := r.modelId

def chunkRows (id : Uuid) (version : Nat) : List Chunk := r.chunks.map (r.chunkRow id version)

end Ingestion

inductive IngestOutcome where
  | indexed
  | unchanged
deriving DecidableEq

structure IngestResult where
  docKey : String
  version : Nat
  outcome : IngestOutcome
  chunks : Nat
deriving DecidableEq

/-! ## Sessions and tables -/

/-- A chunk is known by its document and its index in it. -/
structure ChunkId where
  documentId : Uuid
  chunkIndex : Nat
deriving DecidableEq

def Chunk.rowId (c : Chunk) : ChunkId := ⟨c.documentId, c.chunkIndex⟩

def documentsTable : Table Uuid Document DocumentStatus where
  key d := d.id
  set status d := { d with status }
  key_set _ _ := rfl

def chunksTable : Table ChunkId Chunk Bool where
  key := Chunk.rowId
  set isActive c := { c with isActive }
  key_set _ _ := rfl

/-- The UPDATEs that withdraw a key's chunks, one table after the other. -/
inductive Clearing where
  | next (table : ChunkTable)
  /-- the statement has found its rows and waits for their locks -/
  | waiting (table : ChunkTable) (found : List ChunkId)
deriving DecidableEq

/-- The table the UPDATEs go on to. -/
def Clearing.after : ChunkTable → Option Clearing
  | .chunks => some (.next .confidentialChunks)
  | .confidentialChunks => none

/-- The statements of the swap that follow the locked SELECT. -/
inductive Swap where
  | numbering
  | superseding (version : Nat)
  | clearing (version : Nat) (point : Clearing)
  | adding (version : Nat)
  | filling (version : Nat) (id : Uuid)
  | committing (version : Nat) (id : Uuid)
deriving DecidableEq

/-- The swap once an UPDATE has ended. -/
def Swap.onward (version : Nat) : Option Clearing → Swap
  | some point => .clearing version point
  | none => .adding version

inductive IngestPoint where
  /-- before the first check -/
  | checking
  /-- between the transactions: the chunks are cut and embedded -/
  | preparing
  /-- holding the advisory lock -/
  | locked
  | selecting (found : List Uuid)
  | swapping (active : Option Document) (swap : Swap)
  | returned (result : IngestResult)
  | aborted
deriving DecidableEq

inductive DeactivatePoint where
  | reading
  | marking (active : Document)
  | clearing (active : Document) (point : Clearing)
  | committing (active : Document)
  | returned (found : Bool)
  | aborted
deriving DecidableEq

def DeactivatePoint.onward (active : Document) : Option Clearing → DeactivatePoint
  | some point => .clearing active point
  | none => .committing active

inductive Task where
  | ingest (r : Ingestion) (point : IngestPoint)
  | deactivate (docKey : String) (point : DeactivatePoint)
deriving DecidableEq

structure Session where
  task : Task
  documents : Pending Uuid Document DocumentStatus := {}
  chunks : ChunkTable → Pending ChunkId Chunk Bool := fun _ => {}

structure World where
  documents : List Document := []
  chunks : ChunkTable → List Chunk := fun _ => []
  sessions : List Session := []

/-- `doc_key = :key AND status = 'active'` -/
def activeOf (key : String) (d : Document) : Bool := d.docKey == key && d.status == .active

/-- `doc_key = :key AND is_active` -/
def currentOf (key : String) (c : Chunk) : Bool := c.docKey == key && c.isActive

/-- The key whose advisory lock a session holds. -/
def Session.serialized (s : Session) : Option String :=
  match s.task with
  | .ingest r .locked | .ingest r (.selecting _) | .ingest r (.swapping _ _) => some r.docKey
  | _ => none

/-- The advisory lock itself. -/
def Session.advisory (hashtext : String → Int) (s : Session) : Option Int :=
  s.serialized.map hashtext

/-- What a statement makes of its session: it goes on, or it ends its transaction. -/
inductive Turn where
  | stay (s : Session)
  | commit (task : Task)

namespace Session

variable (s : Session) (w : World) (others : List Session)

/-- `UPDATE documents SET status = :status WHERE id = :id` -/
def mark (id : Uuid) (status : DocumentStatus) : Option Session :=
  if Table.free (others.map Session.documents) [id] then
    some { s with
      documents := documentsTable.update s.documents w.documents [id] (fun d => d.id == id) status }
  else none

/-- `UPDATE ... SET is_active = false WHERE doc_key = :key AND is_active`, for both tables. -/
def clear (key : String) : Clearing → Option (Session × Option Clearing)
  | .next table =>
      some (s, some (.waiting table
        (chunksTable.targets (s.chunks table) (w.chunks table) (currentOf key))))
  | .waiting table found =>
      if Table.free (others.map fun o => o.chunks table) found then
        let cleared :=
          chunksTable.update (s.chunks table) (w.chunks table) found (currentOf key) false
        some ({ s with chunks := fun t => if t = table then cleared else s.chunks t },
          Clearing.after table)
      else none

/-- `latest`, or zero -/
def latest (key : String) : Nat :=
  (((documentsTable.view s.documents w.documents).filter fun d => d.docKey == key).map
    Document.version).foldl max 0

/-- A unique index refuses the row beside the other: the primary key, the key and version, or
`ux_documents_one_active`. -/
def clashes (new d : Document) : Bool :=
  new.id == d.id || new.docKey == d.docKey &&
    (new.version == d.version || new.status == .active && d.status == .active)

/-- The rows a unique index is checked against: another session's insert is waited for. -/
def indexed : List Document :=
  documentsTable.view s.documents w.documents ++ others.flatMap fun o => o.documents.inserts

def addDocument (new : Document) : Option Session :=
  if (s.indexed w others).any (clashes new) then none
  else some { s with documents := { s.documents with inserts := new :: s.documents.inserts } }

/-- The unique index of a chunk table is that of its rows' identities. -/
def addChunks (table : ChunkTable) (rows : List Chunk) : Option Session :=
  let there := chunksTable.view (s.chunks table) (w.chunks table) ++
    others.flatMap fun o => (o.chunks table).inserts
  if (rows.map Chunk.rowId).Nodup ∧ ∀ c ∈ rows, Chunk.rowId c ∉ there.map Chunk.rowId then
    let filled := { s.chunks table with inserts := rows ++ (s.chunks table).inserts }
    some { s with chunks := fun t => if t = table then filled else s.chunks t }
  else none

/-- The swap; `uuid` is the identifier the new row gets. -/
def swap (r : Ingestion) (uuid : Uuid) (active : Option Document) : Swap → Option Turn
  | .numbering =>
      some (.stay { s with
        task := .ingest r (.swapping active (.superseding (s.latest w r.docKey + 1))) })
  | .superseding v =>
      match active with
      | none => some (.stay { s with
          task := .ingest r (.swapping active (.clearing v (.next .chunks))) })
      | some d => (s.mark w others d.id .superseded).map fun s' =>
          .stay { s' with task := .ingest r (.swapping active (.clearing v (.next .chunks))) }
  | .clearing v point => (s.clear w others r.docKey point).map fun (s', more) =>
      .stay { s' with task := .ingest r (.swapping active (.onward v more)) }
  | .adding v => (s.addDocument w others (r.document uuid v)).map fun s' =>
      .stay { s' with task := .ingest r (.swapping active (.filling v uuid)) }
  | .filling v id => (s.addChunks w others r.table (r.chunkRows id v)).map fun s' =>
      .stay { s' with task := .ingest r (.swapping active (.committing v id)) }
  | .committing v _ =>
      some (.commit (.ingest r (.returned ⟨r.docKey, v, .indexed, r.chunks.length⟩)))

/-- The result for content the index already has. -/
def unchangedResult (active : Document) : IngestResult :=
  ⟨active.docKey, active.version, .unchanged, active.chunkCount⟩

/-- `ingest_file`, from its first check on. -/
def ingestFile (hashtext : String → Int) (r : Ingestion) (uuid : Uuid) :
    IngestPoint → Option Turn
  | .checking =>
      match w.documents.find? (activeOf r.docKey) with
      | some active =>
          if r.unchanged active then
            some (.commit (.ingest r (.returned (unchangedResult active))))
          else some (.commit (.ingest r .preparing))
      | none => some (.commit (.ingest r .preparing))
  | .preparing =>
      if others.all fun o => o.advisory hashtext != some (hashtext r.docKey) then
        some (.stay { s with task := .ingest r .locked })
      else none
  | .locked =>
      some (.stay { s with task := .ingest r (.selecting
        (documentsTable.targets s.documents w.documents (activeOf r.docKey))) })
  | .selecting found =>
      if Table.free (others.map Session.documents) found then
        let rows := documentsTable.selected s.documents w.documents found (activeOf r.docKey)
        match rows.head? with
        | some active =>
            if r.unchanged active then
              some (.commit (.ingest r (.returned (unchangedResult active))))
            else some (.stay { s with
              documents := documentsTable.lock s.documents w.documents found (activeOf r.docKey)
              task := .ingest r (.swapping (some active) .numbering) })
        | none => some (.stay { s with task := .ingest r (.swapping none .numbering) })
      else none
  | .swapping active point => s.swap w others r uuid active point
  | .returned _ | .aborted => none

/-- `deactivate` -/
def deactivate (key : String) : DeactivatePoint → Option Turn
  | .reading =>
      match w.documents.find? (activeOf key) with
      | some active => some (.stay { s with task := .deactivate key (.marking active) })
      | none => some (.commit (.deactivate key (.returned false)))
  | .marking active => (s.mark w others active.id .deleted).map fun s' =>
      .stay { s' with task := .deactivate key (.clearing active (.next .chunks)) }
  | .clearing active point => (s.clear w others key point).map fun (s', more) =>
      .stay { s' with task := .deactivate key (.onward active more) }
  | .committing _ => some (.commit (.deactivate key (.returned true)))
  | .returned _ | .aborted => none

def turn (hashtext : String → Int) (uuid : Uuid) : Option Turn :=
  match s.task with
  | .ingest r point => s.ingestFile w others hashtext r uuid point
  | .deactivate key point => s.deactivate w others key point

/-- The exception every statement may end with: a lost connection, a deadlock, a failed
embedding, a constraint. -/
def abort : Option Session :=
  match s.task with
  | .ingest _ (.returned _) | .ingest _ .aborted => none
  | .deactivate _ (.returned _) | .deactivate _ .aborted => none
  | .ingest r _ => some { task := .ingest r .aborted }
  | .deactivate key _ => some { task := .deactivate key .aborted }

end Session

/-! ## Steps -/

inductive Act where
  | ingest (r : Ingestion)
  | deactivate (docKey : String)
  | advance (i : Nat) (uuid : Uuid)
  | abort (i : Nat)

namespace World

variable (w : World)

/-- A session's turn ends: it goes on with its transaction, or commits it. -/
def take (i : Nat) (s : Session) : Turn → World
  | .stay s' => { w with sessions := w.sessions.set i s' }
  | .commit task =>
      { documents := documentsTable.view s.documents w.documents
        chunks := fun t => chunksTable.view (s.chunks t) (w.chunks t)
        sessions := w.sessions.set i { task } }

def step (hashtext : String → Int) (w : World) : Act → Option World
  | .ingest r => some { w with sessions := w.sessions ++ [{ task := .ingest r .checking }] }
  | .deactivate key =>
      some { w with sessions := w.sessions ++ [{ task := .deactivate key .reading }] }
  | .advance i uuid => do
      let s ← w.sessions[i]?
      let turn ← s.turn w (w.sessions.eraseIdx i) hashtext uuid
      some (w.take i s turn)
  | .abort i => do
      let s ← w.sessions[i]?
      let s' ← s.abort
      some { w with sessions := w.sessions.set i s' }

/-- The active versions of a key. -/
def active (key : String) : List Document := w.documents.filter (activeOf key)

/-- The active chunks of a key in one table. -/
def current (table : ChunkTable) (key : String) : List Chunk :=
  (w.chunks table).filter (currentOf key)

end World

end OpsAssist.Ingest
