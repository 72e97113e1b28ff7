/-
# OpsAssist.Theory.Markup -- text inside markup

Escaping a text for an element or a quoted attribute, reading it back, and finding a tag
again: an escaped text holds no opening bracket, and none of the characters a tag begins
with, so the first place a tag is found is where it was written.

`unescape_escape`: escaping is undone.
`cut_append`: a text is cut where the needle was put, when its first character does not
stand before it.
-/
import OpsAssist.Theory.Text

namespace OpsAssist.Theory.Markup

set_option autoImplicit false

open Text

/-! ## Escaping -/

/-- What stands for a character; quotation marks are escaped in attributes only. -/
def escapeChar (quote : Bool) (c : Char) : List Char :=
  match c with
  | '&' => "&amp;".toList
  | '<' => "&lt;".toList
  | '>' => "&gt;".toList
  | '"' => if quote then "&quot;".toList else ['"']
  | '\'' => if quote then "&#x27;".toList else ['\'']
  | other => [other]

def escape (quote : Bool) (text : List Char) : List Char := text.flatMap (escapeChar quote)

/-- The characters the references stand for. -/
def unescape : List Char → List Char
  | '&' :: 'a' :: 'm' :: 'p' :: ';' :: rest => '&' :: unescape rest
  | '&' :: 'l' :: 't' :: ';' :: rest => '<' :: unescape rest
  | '&' :: 'g' :: 't' :: ';' :: rest => '>' :: unescape rest
  | '&' :: 'q' :: 'u' :: 'o' :: 't' :: ';' :: rest => '"' :: unescape rest
  | '&' :: '#' :: 'x' :: '2' :: '7' :: ';' :: rest => '\'' :: unescape rest
  | c :: rest => c :: unescape rest
  | [] => []

/-- The characters that may be escaped. -/
def special (c : Char) : Bool := c == '&' || c == '<' || c == '>' || c == '"' || c == '\''

theorem escapeChar_plain (quote : Bool) {c : Char} (plain : special c = false) :
    escapeChar quote c = [c] := by
  simp only [special, Bool.or_eq_false_iff, beq_eq_false_iff_ne, ne_eq] at plain
  rw [escapeChar] <;> simp_all

theorem unescape_cons {c : Char} (other : c ≠ '&') (rest : List Char) :
    unescape (c :: rest) = c :: unescape rest := by
  rw [unescape] <;> simp_all

/-- A character that may be escaped is one of five. -/
theorem special_cases {c : Char} (found : special c = true) :
    c = '&' ∨ c = '<' ∨ c = '>' ∨ c = '"' ∨ c = '\'' := by
  simpa [special, or_assoc] using found

/-- **Escaping is undone.** -/
theorem unescape_escape (quote : Bool) : ∀ text : List Char,
    unescape (escape quote text) = text
  | [] => rfl
  | c :: rest => by
      have ih := unescape_escape quote rest
      rw [escape] at ih ⊢
      rw [List.flatMap_cons]
      by_cases found : special c = true
      · rcases special_cases found with rfl | rfl | rfl | rfl | rfl <;> cases quote <;>
          simp [escapeChar, unescape, unescape_cons, ih]
      · have plain : special c = false := by simpa using found
        have other : c ≠ '&' := by
          rintro rfl
          cases plain
        rw [escapeChar_plain quote plain, List.singleton_append, unescape_cons other, ih]

/-- A character of an escaped text is not one that is escaped. -/
theorem not_mem_escape {quote : Bool} {c : Char} (free : ∀ d, c ∉ escapeChar quote d)
    (text : List Char) : c ∉ escape quote text := by
  intro mem
  obtain ⟨d, _, inside⟩ := List.mem_flatMap.mp mem
  exact free d inside

theorem opening_not_mem (quote : Bool) (text : List Char) : '<' ∉ escape quote text := by
  refine not_mem_escape (fun d inside => ?_) text
  by_cases found : special d = true
  · rcases special_cases found with rfl | rfl | rfl | rfl | rfl <;> cases quote <;>
      simp [escapeChar] at inside
  · have plain : special d = false := by simpa using found
    rw [escapeChar_plain quote plain, List.mem_singleton] at inside
    subst inside
    cases plain

theorem quote_not_mem (text : List Char) : '"' ∉ escape true text := by
  refine not_mem_escape (fun d inside => ?_) text
  by_cases found : special d = true
  · rcases special_cases found with rfl | rfl | rfl | rfl | rfl <;> simp [escapeChar] at inside
  · have plain : special d = false := by simpa using found
    rw [escapeChar_plain true plain, List.mem_singleton] at inside
    subst inside
    cases plain

/-! ## Finding tags -/

/-- A needle is not found where its first character does not stand. -/
theorem isPrefixOf_cons_false {needle : List Char} {c d : Char} (first : needle.head? = some c)
    (other : c ≠ d) (rest : List Char) : needle.isPrefixOf (d :: rest) = false := by
  cases needle with
  | nil => cases first
  | cons e needle =>
      cases first
      rw [List.isPrefixOf_cons_cons, Bool.and_eq_false_iff, beq_eq_false_iff_ne]
      exact .inl other

/-- **A text is cut where a needle was put**, when its first character does not stand before. -/
theorem cut_append {needle : List Char} {c : Char} (first : needle.head? = some c)
    (after : List Char) : ∀ {before : List Char}, c ∉ before →
    cut needle (before ++ (needle ++ after)) = some (before, after)
  | [], _ => by
      cases needle with
      | nil => cases first
      | cons d needle =>
          have front : (d :: needle).isPrefixOf (d :: (needle ++ after)) = true := by simp
          rw [List.nil_append, List.cons_append, cut, if_pos front]
          simp
  | d :: before, free => by
      have other := isPrefixOf_cons_false first (fun same => free (same ▸ List.mem_cons_self))
        (before ++ (needle ++ after))
      rw [List.cons_append, cut, if_neg (by rw [other]; exact Bool.false_ne_true),
        cut_append first after fun mem => free (List.mem_cons_of_mem _ mem)]
      rfl

/-- Without its first character a needle is not found. -/
theorem cut_none {needle : List Char} {c : Char} (first : needle.head? = some c) :
    ∀ {text : List Char}, c ∉ text → cut needle text = none
  | [], _ => by
      cases needle with
      | nil => cases first
      | cons d needle => rfl
  | d :: text, free => by
      have other := isPrefixOf_cons_false first (fun same => free (same ▸ List.mem_cons_self)) text
      rw [cut, if_neg (by rw [other]; exact Bool.false_ne_true),
        cut_none first fun mem => free (List.mem_cons_of_mem _ mem)]
      rfl

/-- At how many places of a text a needle stands. -/
def occurrences (needle : List Char) : List Char → Nat
  | [] => 0
  | c :: rest => (if needle.isPrefixOf (c :: rest) then 1 else 0) + occurrences needle rest

theorem occurrences_le_length (needle : List Char) : ∀ text : List Char,
    occurrences needle text ≤ text.length
  | [] => Nat.le_refl 0
  | c :: rest => by
      have behind := occurrences_le_length needle rest
      rw [occurrences, List.length_cons]
      split <;> omega

/-- Before the first character of the needle nothing is found. -/
theorem occurrences_append {needle : List Char} {c : Char} (first : needle.head? = some c)
    (rest : List Char) : ∀ {text : List Char}, c ∉ text →
    occurrences needle (text ++ rest) = occurrences needle rest
  | [], _ => rfl
  | d :: text, free => by
      have other := isPrefixOf_cons_false first (fun same => free (same ▸ List.mem_cons_self))
        (text ++ rest)
      rw [List.cons_append, occurrences, if_neg (by rw [other]; exact Bool.false_ne_true),
        Nat.zero_add, occurrences_append first rest fun mem => free (List.mem_cons_of_mem _ mem)]

/-- A tag that begins with the needle's first character is counted when it is the needle, and
holds no other. -/
theorem occurrences_tag {needle tag : List Char} {c : Char} (first : needle.head? = some c)
    (once : c ∉ tag) (rest : List Char) :
    occurrences needle (c :: (tag ++ rest)) =
      (if needle.isPrefixOf (c :: (tag ++ rest)) then 1 else 0) + occurrences needle rest := by
  rw [occurrences, occurrences_append first rest once]

end OpsAssist.Theory.Markup
