/-
# OpsAssist.Theory.Blanks -- a text apart from how its words are spaced

`flatten` makes one space of every run of blanks: what is left is the words
(`flatten_dropWhile`).  Reading a text from its front, a character, a run of characters or a
given beginning that holds no blank is the same in the flattened text.
-/
import OpsAssist.Theory.Lines
import OpsAssist.Theory.Words

namespace OpsAssist.Theory.Text

set_option autoImplicit false

/-! ## One space for every run of blanks -/

/-- Each run of blanks as one space, and those at the end as nothing. -/
def flatten : List Char → List Char
  | [] => []
  | c :: rest =>
      if isSpace c then if rest.head?.all isSpace then flatten rest else ' ' :: flatten rest
      else c :: flatten rest

theorem flatten_solid {c : Char} (solid : isSpace c = false) (rest : List Char) :
    flatten (c :: rest) = c :: flatten rest := by
  rw [flatten, if_neg (by simp [solid])]

theorem flatten_append {front : List Char} (solid : ∀ c ∈ front, isSpace c = false)
    (rest : List Char) : flatten (front ++ rest) = front ++ flatten rest := by
  induction front with
  | nil => rfl
  | cons c front ih =>
      rw [List.cons_append, flatten_solid (solid c List.mem_cons_self),
        ih fun d mem => solid d (List.mem_cons_of_mem c mem)]
      rfl

/-- A text that begins with a blank is flattened to nothing, or to a space and more. -/
theorem flatten_blank {c : Char} (blank : isSpace c = true) : ∀ rest : List Char,
    flatten (c :: rest) = [] ∨ ∃ more, flatten (c :: rest) = ' ' :: more
  | [] => by
      rw [flatten, if_pos blank]
      exact .inl rfl
  | d :: rest => by
      rw [flatten, if_pos blank]
      by_cases next : isSpace d = true
      · rw [if_pos (by simpa using next)]
        exact flatten_blank next rest
      · rw [if_neg (by simpa using next)]
        exact .inr ⟨_, rfl⟩

/-- **The flattened text is its words**, behind a space if it begins with a blank. -/
theorem flatten_eq : ∀ text : List Char, flatten text =
    (if text.head?.any isSpace ∧ words text ≠ [] then [' '] else []) ++ join ' ' (words text)
  | [] => rfl
  | c :: rest => by
      have ih := flatten_eq rest
      by_cases blank : isSpace c = true
      · rw [flatten, if_pos blank, words_blank blank]
        cases rest with
        | nil => simpa [words, flatten] using ih
        | cons d rest =>
            by_cases next : isSpace d = true
            · rw [if_pos (by simpa using next), ih]
              simp [next, blank]
            · have some_word := words_ne_nil (Bool.eq_false_iff.mpr next) rest
              rw [if_neg (by simpa using next), ih]
              simp [next, blank, some_word]
      · have solid : isSpace c = false := Bool.eq_false_iff.mpr blank
        rw [flatten_solid solid, ih]
        simp only [List.head?_cons, Option.any_some, blank, Bool.false_eq_true, false_and,
          if_false, List.nil_append]
        rw [words, if_neg blank]
        cases rest with
        | nil => rfl
        | cons d rest =>
            by_cases next : isSpace d = true
            · cases known : words (d :: rest) with
              | nil => simp [next, join]
              | cons word more => simp [next, join_cons]
            · obtain ⟨word, more, known⟩ :=
                List.exists_cons_of_ne_nil (words_ne_nil (Bool.eq_false_iff.mpr next) rest)
              simp [next, known, join_cons]

theorem words_dropWhile : ∀ text : List Char, words (text.dropWhile isSpace) = words text
  | [] => rfl
  | c :: rest => by
      by_cases blank : isSpace c = true
      · rw [List.dropWhile_cons_of_pos blank, words_dropWhile rest, words_blank blank]
      · rw [List.dropWhile_cons_of_neg blank]

/-- A text without words is stripped to nothing. -/
theorem strip_wordless {text : List Char} (wordless : words text = []) : strip text = [] := by
  have first := List.head?_dropWhile_not isSpace text
  rw [← words_dropWhile] at wordless
  cases shape : text.dropWhile isSpace with
  | nil => rw [strip, stripOf, shape]; rfl
  | cons c rest =>
      rw [shape] at first wordless
      exact absurd wordless (words_ne_nil (by simpa using first) rest)

theorem flatten_dropWhile (text : List Char) :
    flatten (text.dropWhile isSpace) = join ' ' (words text) := by
  rw [flatten_eq, words_dropWhile]
  have solid : (text.dropWhile isSpace).head?.any isSpace = false := by
    have first := List.head?_dropWhile_not isSpace text
    cases shape : (text.dropWhile isSpace).head? with
    | none => rfl
    | some c =>
        rw [shape] at first
        simpa using first
  simp [solid]

/-- A run of characters that are no blanks is not changed. -/
theorem takeWhile_flatten {p : Char → Bool} (blind : ∀ c, isSpace c = true → p c = false) :
    ∀ text : List Char, (flatten text).takeWhile p = text.takeWhile p
  | [] => rfl
  | c :: rest => by
      by_cases blank : isSpace c = true
      · rw [List.takeWhile_cons_of_neg (by simp [blind c blank])]
        rcases flatten_blank blank rest with empty | ⟨more, shape⟩
        · rw [empty]
          rfl
        · rw [shape, List.takeWhile_cons_of_neg (by simp [blind ' ' (by decide)])]
      · have solid : isSpace c = false := Bool.eq_false_iff.mpr blank
        rw [flatten_solid solid, List.takeWhile_cons, List.takeWhile_cons,
          takeWhile_flatten blind rest]

theorem dropWhile_flatten : ∀ text : List Char,
    (flatten text).dropWhile isSpace = flatten (text.dropWhile isSpace)
  | [] => rfl
  | c :: rest => by
      by_cases blank : isSpace c = true
      · rw [List.dropWhile_cons_of_pos blank, ← dropWhile_flatten rest, flatten, if_pos blank]
        split
        · rfl
        · rw [List.dropWhile_cons_of_pos (by decide)]
      · have solid : isSpace c = false := Bool.eq_false_iff.mpr blank
        rw [List.dropWhile_cons_of_neg blank, flatten_solid solid,
          List.dropWhile_cons_of_neg blank]

theorem isPrefixOf_flatten : ∀ {front : List Char}, (∀ c ∈ front, isSpace c = false) →
    ∀ text : List Char, front.isPrefixOf (flatten text) = front.isPrefixOf text
  | [], _, _ => rfl
  | c :: front, _, [] => rfl
  | c :: front, solid, d :: rest => by
      have ih := isPrefixOf_flatten fun e mem => solid e (List.mem_cons_of_mem c mem)
      have first := solid c List.mem_cons_self
      by_cases blank : isSpace d = true
      · have other : c ≠ d := fun same => by simp [same, blank] at first
        have space : c ≠ ' ' := fun same => by simp [same, isSpace] at first
        rw [Markup.isPrefixOf_cons_false rfl other]
        rcases flatten_blank blank rest with empty | ⟨more, shape⟩
        · rw [empty]
          rfl
        · rw [shape, Markup.isPrefixOf_cons_false rfl space]
      · rw [flatten_solid (Bool.eq_false_iff.mpr blank), List.isPrefixOf_cons_cons,
          List.isPrefixOf_cons_cons, ih]

end OpsAssist.Theory.Text
