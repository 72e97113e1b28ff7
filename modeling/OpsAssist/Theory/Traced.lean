/-
# OpsAssist.Theory.Traced -- texts with the items they may quote

A `Traced σ` is a text together with items of `σ`: everything in the text that came out
of an item came out of one of these.  Writing text down quotes nothing, putting texts
together quotes what the parts quote, and taking a part of a text may still quote all of
it.  `Within P` says that every item quoted has a property; the rules say how it passes
through the operations.
-/
import Mathlib.Data.List.Basic

namespace OpsAssist.Theory

set_option autoImplicit false

@[ext] structure Traced (σ : Type) where
  text : String
  quotes : List σ

namespace Traced

variable {σ : Type}

/-- A text of its own. -/
def plain (text : String) : Traced σ := ⟨text, []⟩

/-- A text made from items. -/
def quoting (text : String) (items : List σ) : Traced σ := ⟨text, items⟩

instance : Append (Traced σ) where
  append a b := ⟨a.text ++ b.text, a.quotes ++ b.quotes⟩

def join (separator : String) (parts : List (Traced σ)) : Traced σ :=
  ⟨String.intercalate separator (parts.map text), parts.flatMap quotes⟩

/-- What `f` keeps of a text. -/
def cut (f : String → String) (t : Traced σ) : Traced σ := ⟨f t.text, t.quotes⟩

/-- Every item the text may quote has the property. -/
def Within (P : σ → Prop) (t : Traced σ) : Prop := ∀ s ∈ t.quotes, P s

variable {P : σ → Prop}

@[simp] theorem within_plain (text : String) : (plain text).Within P := by
  intro s mem
  cases mem

@[simp] theorem within_quoting {text : String} {items : List σ} :
    (quoting text items).Within P ↔ ∀ s ∈ items, P s := Iff.rfl

@[simp] theorem within_append {a b : Traced σ} :
    (a ++ b).Within P ↔ a.Within P ∧ b.Within P := by
  constructor
  · intro both
    exact ⟨fun s mem => both s (List.mem_append_left _ mem),
      fun s mem => both s (List.mem_append_right _ mem)⟩
  · rintro ⟨left, right⟩ s mem
    rcases List.mem_append.mp mem with inLeft | inRight
    · exact left s inLeft
    · exact right s inRight

@[simp] theorem within_join {separator : String} {parts : List (Traced σ)} :
    (join separator parts).Within P ↔ ∀ t ∈ parts, t.Within P := by
  constructor
  · intro all t mem s quoted
    exact all s (List.mem_flatMap.mpr ⟨t, mem, quoted⟩)
  · intro each s mem
    obtain ⟨t, there, quoted⟩ := List.mem_flatMap.mp mem
    exact each t there s quoted

@[simp] theorem within_cut {f : String → String} {t : Traced σ} :
    (t.cut f).Within P ↔ t.Within P := Iff.rfl

end Traced

end OpsAssist.Theory
