/-
# OpsAssist.Knowledge.Parsing -- what a knowledge file is parsed into
-/
import OpsAssist.Config

namespace OpsAssist

set_option autoImplicit false

structure DocumentMeta where
  documentId : String
  title : String
  department : String
  classification : Classification
  updatedAt : String
  source : Option String := none
deriving DecidableEq

inductive BlockKind where
  | heading
  | paragraph
  | item
deriving DecidableEq

structure Block where
  text : String
  kind : BlockKind
  page : Option Nat := none
  /-- the heading path, outermost first -/
  headings : List String := []
  level : Nat := 0
deriving DecidableEq

structure ParsedDocument where
  metadata : DocumentMeta
  blocks : List Block
  mimeType : String
  sourcePath : String
deriving DecidableEq

end OpsAssist
