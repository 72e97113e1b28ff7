/-
# OpsAssist.Knowledge.Tables -- documents, chunks and their row-level security

The rows of the knowledge index and the policies that decide which of them a session sees.
The settings the policies read are local to a transaction; none of them is set at first.
-/
import OpsAssist.Config
import OpsAssist.Theory.Stamp
import OpsAssist.Theory.Text

namespace OpsAssist

set_option autoImplicit false

open Theory

/-! ## Rows -/

inductive DocumentStatus where
  | active
  | superseded
  | deleted
deriving DecidableEq

/-- One version of a document; when it was ingested and superseded is left out. -/
structure Document where
  id : Uuid
  docKey : String
  version : Nat
  title : String
  department : String
  classification : Classification
  mimeType : String
  sourcePath : String
  contentSha256 : String
  status : DocumentStatus := .active
  docUpdatedAt : String
  embeddingModel : String
  chunker : Option String := none
  chunkCount : Nat
deriving DecidableEq

/-- The shared index, and the one of confidential documents. -/
inductive ChunkTable where
  | chunks
  | confidentialChunks
deriving DecidableEq

/-- The classifications a table's CHECK admits. -/
def ChunkTable.holds : ChunkTable → Classification → Bool
  | .chunks, .public_ | .chunks, .internal => true
  | .chunks, .confidential => false
  | .confidentialChunks, c => c == .confidential

/-- The embedding, the text it is made from and display data are left out. -/
structure Chunk where
  documentId : Uuid
  docKey : String
  version : Nat
  department : String
  classification : Classification
  chunkIndex : Nat
  parentIndex : Option Nat := none
  locator : String := ""
  content : String := ""
  /-- the section handed to the model; without one it is the content -/
  context : Option String := none
  embeddingModel : String
  isActive : Bool := true
deriving DecidableEq

/-! ## Row-level security -/

/-- What `current_setting(..., true)` gives in a transaction. -/
structure RlsSettings where
  readDepartments : Option String := none
  confidentialDepartments : Option String := none
  ingest : Option String := none

/-- `string_to_array(coalesce(setting, ''), ',')`: of the empty text, no array elements. -/
def settingArray (setting : Option String) : List String :=
  match (setting.getD "").toList with
  | [] => []
  | text => (Text.splitOn ',' text).map String.ofList

namespace RlsSettings

variable (settings : RlsSettings)

def ingesting : Bool := settings.ingest.getD "" == "on"

/-- `documents_read`, or `documents_ingest`. -/
def seesDocument (d : Document) : Bool :=
  settings.ingesting || d.classification == .public_ ||
    (d.classification == .internal &&
      (settingArray settings.readDepartments).contains d.department) ||
    (d.classification == .confidential &&
      (settingArray settings.confidentialDepartments).contains d.department)

/-- `chunks_read` and `confidential_chunks_read`, or the ingest policy of the table. -/
def seesChunk (table : ChunkTable) (c : Chunk) : Bool :=
  settings.ingesting ||
    match table with
    | .chunks => c.classification == .public_ ||
        (settingArray settings.readDepartments).contains c.department
    | .confidentialChunks => (settingArray settings.confidentialDepartments).contains c.department

end RlsSettings

end OpsAssist
