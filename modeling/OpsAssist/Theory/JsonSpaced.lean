/-
# OpsAssist.Theory.JsonSpaced -- JSON text with blanks after its separators

`spaced` writes a tree as `text` does, with a blank after every comma and colon between
members and items.  `unspace` reads such a text and drops the blanks outside of strings:
what is left is the compact text (`unspace_spaced`), so the spaced text determines the tree
as well.
-/
import OpsAssist.Theory.JsonText

namespace OpsAssist.Theory.Json

set_option autoImplicit false

open Numeral

variable {ν : Type}

section

variable (numText : ν → List Char)

mutual

/-- The text of a tree with a blank after each separator. -/
def spaced : Json ν → List Char
  | .arr [] => ['[', ']']
  | .arr (item :: items) => '[' :: (spaced item ++ spacedItems items)
  | .obj [] => ['{', '}']
  | .obj ((k, v) :: rest) => '{' :: (quoted k ++ ':' :: ' ' :: (spaced v ++ spacedMembers rest))
  | .null => text numText .null
  | .bool b => text numText (.bool b)
  | .num n => text numText (.num n)
  | .str s => text numText (.str s)

def spacedItems : List (Json ν) → List Char
  | [] => [']']
  | item :: items => ',' :: ' ' :: (spaced item ++ spacedItems items)

def spacedMembers : List (String × Json ν) → List Char
  | [] => ['}']
  | (k, v) :: rest =>
      ',' :: ' ' :: (quoted k ++ ':' :: ' ' :: (spaced v ++ spacedMembers rest))

end

end

/-- The text without the blanks outside of strings; whether it starts within one. -/
def unspace : Bool → List Char → List Char
  | _, [] => []
  | true, '\\' :: c :: cs => '\\' :: c :: unspace true cs
  | true, '"' :: cs => '"' :: unspace false cs
  | true, c :: cs => c :: unspace true cs
  | false, ' ' :: cs => unspace false cs
  | false, '"' :: cs => '"' :: unspace true cs
  | false, c :: cs => c :: unspace false cs

/-! ## Within a string -/

theorem unspace_plain {c : Char} (quote : c ≠ '"') (backslash : c ≠ '\\') (cs : List Char) :
    unspace true (c :: cs) = c :: unspace true cs := by
  rw [unspace]
  · exact fun _ _ same => absurd same backslash
  · exact quote

theorem hexDigit_plain (n : Nat) : hexDigit (n % 16) ≠ '"' ∧ hexDigit (n % 16) ≠ '\\' := by
  have table : ∀ d : Fin 16, hexDigit d.val ≠ '"' ∧ hexDigit d.val ≠ '\\' := by decide
  exact table ⟨n % 16, Nat.mod_lt n (by decide)⟩

theorem unspace_hexQuad (n : Nat) (cs : List Char) :
    unspace true (hexQuad n ++ cs) = hexQuad n ++ unspace true cs := by
  unfold hexQuad
  simp only [List.cons_append, List.nil_append]
  rw [unspace_plain (hexDigit_plain _).1 (hexDigit_plain _).2,
    unspace_plain (hexDigit_plain _).1 (hexDigit_plain _).2,
    unspace_plain (hexDigit_plain _).1 (hexDigit_plain _).2,
    unspace_plain (hexDigit_plain _).1 (hexDigit_plain _).2]

theorem unspace_unicodeEscape (n : Nat) (cs : List Char) :
    unspace true (unicodeEscape n ++ cs) = unicodeEscape n ++ unspace true cs := by
  unfold unicodeEscape
  split
  · show '\\' :: 'u' :: unspace true (hexQuad n ++ cs) = _
    rw [unspace_hexQuad]
    rfl
  · simp only [List.cons_append, List.append_assoc]
    rw [unspace, unspace_hexQuad, unspace, unspace_hexQuad]

theorem unspace_escapeChar (c : Char) (cs : List Char) :
    unspace true (escapeChar c ++ cs) = escapeChar c ++ unspace true cs := by
  rcases escapeChar_cases c with ⟨letter, -, shape⟩ | ⟨short, shape⟩ | ⟨-, shape⟩
  · rw [shape]
    rfl
  · rw [shape]
    apply unspace_plain
    · rintro rfl
      revert short
      decide
    · rintro rfl
      revert short
      decide
  · rw [shape]
    exact unspace_unicodeEscape c.toNat cs

/-- A string keeps its blanks. -/
theorem unspace_quoted (s : String) (cs : List Char) :
    unspace false (quoted s ++ cs) = quoted s ++ unspace false cs := by
  have body : ∀ l : List Char, unspace true (l.flatMap escapeChar ++ ('"' :: cs)) =
      l.flatMap escapeChar ++ '"' :: unspace false cs := by
    intro l
    induction l with
    | nil => rfl
    | cons c l ih =>
        rw [List.flatMap_cons, List.append_assoc, unspace_escapeChar, ih, List.append_assoc]
  show '"' :: unspace true ((s.toList.flatMap escapeChar ++ ['"']) ++ cs) = _
  rw [List.append_assoc]
  show '"' :: unspace true (s.toList.flatMap escapeChar ++ ('"' :: cs)) = _
  rw [body]
  simp only [quoted, List.cons_append, List.append_assoc, List.nil_append]

/-! ## Outside of strings -/

theorem unspace_word {w : List Char} (word : ∀ c ∈ w, isWordChar c = true) (cs : List Char) :
    unspace false (w ++ cs) = w ++ unspace false cs := by
  induction w with
  | nil => rfl
  | cons c w ih =>
      have here := word c List.mem_cons_self
      have blank : c ≠ ' ' := by
        rintro rfl
        revert here
        decide
      have quote : c ≠ '"' := by
        rintro rfl
        revert here
        decide
      rw [List.cons_append, unspace]
      · rw [ih fun d mem => word d (List.mem_cons_of_mem _ mem)]
        rfl
      · exact blank
      · exact quote

mutual

/-- **Without its blanks the spaced text is the compact one.** -/
theorem unspace_spaced {numText : ν → List Char} (good : NumberText numText) :
    ∀ (a : Json ν) (cs : List Char),
      unspace false (spaced numText a ++ cs) = text numText a ++ unspace false cs
  | .null, cs => by
      simp only [spaced]
      exact unspace_word (word_text good rfl).1 cs
  | .bool b, cs => by
      simp only [spaced]
      exact unspace_word (word_text good rfl).1 cs
  | .num n, cs => by
      simp only [spaced]
      exact unspace_word (word_text good rfl).1 cs
  | .str s, cs => by
      simp only [spaced, text]
      exact unspace_quoted s cs
  | .arr [], cs => by
      simp only [spaced, text]
      rfl
  | .arr (item :: items), cs => by
      simp only [spaced, text, List.cons_append, List.append_assoc]
      rw [unspace, unspace_spaced good item, unspace_spacedItems good items]
      · decide
      · decide
  | .obj [], cs => by
      simp only [spaced, text]
      rfl
  | .obj ((k, v) :: rest), cs => by
      simp only [spaced, text, List.cons_append, List.append_assoc]
      rw [unspace, unspace_quoted]
      · show _ = '{' :: (quoted k ++ ':' :: _)
        rw [unspace, unspace, unspace_spaced good v, unspace_spacedMembers good rest]
        · decide
        · decide
      · decide
      · decide

theorem unspace_spacedItems {numText : ν → List Char} (good : NumberText numText) :
    ∀ (items : List (Json ν)) (cs : List Char),
      unspace false (spacedItems numText items ++ cs) = moreItems numText items ++ unspace false cs
  | [], cs => by
      simp only [spacedItems, moreItems]
      rfl
  | item :: items, cs => by
      simp only [spacedItems, moreItems, List.cons_append, List.append_assoc]
      rw [unspace, unspace, unspace_spaced good item, unspace_spacedItems good items]
      · decide
      · decide

theorem unspace_spacedMembers {numText : ν → List Char} (good : NumberText numText) :
    ∀ (members : List (String × Json ν)) (cs : List Char),
      unspace false (spacedMembers numText members ++ cs) =
        moreMembers numText members ++ unspace false cs
  | [], cs => by
      simp only [spacedMembers, moreMembers]
      rfl
  | (k, v) :: rest, cs => by
      simp only [spacedMembers, moreMembers, List.cons_append, List.append_assoc]
      rw [unspace, unspace, unspace_quoted]
      · rw [unspace, unspace, unspace_spaced good v, unspace_spacedMembers good rest]
        · decide
        · decide
      · decide
      · decide

end

/-- **The spaced text determines the tree.** -/
theorem spaced_injective {numText : ν → List Char} (good : NumberText numText) {a b : Json ν}
    (same : spaced numText a = spaced numText b) : text numText a = text numText b := by
  have left := unspace_spaced good a []
  have right := unspace_spaced good b []
  rw [same, right] at left
  simpa only [unspace, List.append_nil] using left.symm

end OpsAssist.Theory.Json
