/-
# OpsAssist.Knowledge.Retrieval -- what retrieval returns

Retrieved chunks with the data the prompt and the answer are made from, and the
classification of a result, which decides whether it may leave the box.
-/
import OpsAssist.Config
import OpsAssist.Theory.Traced

namespace OpsAssist

set_option autoImplicit false

open Classification Theory

/-- A chunk with its section and its document; keys and scores are left out. -/
structure RetrievedChunk where
  docKey : String
  version : Nat
  title : String
  department : String
  classification : Classification
  locator : String
  /-- the matched passage -/
  content : String
  /-- the section handed to the model -/
  context : String
  docUpdatedAt : String
deriving DecidableEq

def RetrievedChunk.stableRef (c : RetrievedChunk) : String :=
  c.docKey ++ "@v" ++ toString c.version ++ "#" ++ c.locator

structure RetrievalResult where
  chunks : List RetrievedChunk
  /-- filled only when the gate admitted nothing: sections just under the bar -/
  nearMisses : List RetrievedChunk := []
  reviewed : Nat := 0
  admittedByReview : Nat := 0

/-- The most sensitive class of these chunks. -/
def maxClassification (chunks : List RetrievedChunk) : Option Classification :=
  mostSensitive (chunks.map fun c => some c.classification)

/-- The most sensitive class in the context. -/
def RetrievalResult.maxClassification (r : RetrievalResult) : Option Classification :=
  OpsAssist.maxClassification r.chunks

theorem level_le_maxClassification {chunks : List RetrievedChunk} {c : RetrievedChunk}
    (mem : c ∈ chunks) : level (some c.classification) ≤ level (maxClassification chunks) :=
  level_mostSensitive_le.mp (Nat.le_refl _) _ (List.mem_map.mpr ⟨c, mem, rfl⟩)

/-- A text that may leave the box holds nothing of a chunk that may not. -/
abbrev Text := Traced RetrievedChunk

def Settings.MayLeave (settings : Settings) (c : RetrievedChunk) : Prop :=
  settings.allowsEgress (some c.classification) = true

/-- Every chunk of a result that may leave may leave. -/
theorem mayLeave_of_max {settings : Settings} {chunks : List RetrievedChunk}
    (allowed : settings.allowsEgress (maxClassification chunks) = true) :
    ∀ c ∈ chunks, settings.MayLeave c :=
  fun _ mem => allowsEgress_of_level_le (level_le_maxClassification mem) allowed

end OpsAssist
