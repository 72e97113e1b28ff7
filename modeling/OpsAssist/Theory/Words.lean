/-
# OpsAssist.Theory.Words -- what splitting a text at its blanks keeps

A blank between two texts keeps their words apart (`words_append_blank`); blanks at
either end, and stripping them, change nothing (`words_strip`).
-/
import Mathlib.Data.List.TakeWhile
import OpsAssist.Theory.Text

namespace OpsAssist.Theory.Text

set_option autoImplicit false

theorem words_blank {c : Char} (blank : isSpace c = true) (rest : List Char) :
    words (c :: rest) = words rest := by
  rw [words, if_pos blank]

theorem words_ne_nil {c : Char} (solid : isSpace c = false) (rest : List Char) :
    words (c :: rest) ≠ [] := by
  rw [words, if_neg (by simp [solid])]
  split
  · exact List.cons_ne_nil _ _
  · split
    · exact List.cons_ne_nil _ _
    · exact List.cons_ne_nil _ _

/-- The words on either side of a blank. -/
theorem words_append_blank {c : Char} (blank : isSpace c = true) (y : List Char) :
    ∀ x : List Char, words (x ++ c :: y) = words x ++ words y
  | [] => words_blank blank y
  | d :: x => by
      have ih := words_append_blank blank y x
      by_cases space : isSpace d = true
      · rw [List.cons_append, words_blank space, words_blank space, ih]
      · rw [List.cons_append, words, words, if_neg space, if_neg space]
        cases x with
        | nil =>
            simp only [List.nil_append, List.head?_cons, Option.map_some, blank, Option.getD_some,
              if_true, List.head?_nil, Option.map_none, Option.getD_none, words_blank blank]
            rfl
        | cons e x =>
            rw [List.cons_append] at ih ⊢
            have head : ∀ rest : List Char,
                ((e :: rest).head?.map isSpace).getD true = isSpace e := fun _ => rfl
            by_cases next : isSpace e = true
            · rw [if_pos ((head _).trans next), if_pos ((head _).trans next), ih, List.cons_append]
            · obtain ⟨word, more, known⟩ :=
                List.exists_cons_of_ne_nil (words_ne_nil (Bool.eq_false_iff.mpr next) x)
              rw [if_neg (by rwa [head]), if_neg (by rwa [head]), ih, known]
              rfl

theorem words_blanks : ∀ {lead : List Char}, (∀ c ∈ lead, isSpace c = true) → ∀ rest,
    words (lead ++ rest) = words rest
  | [], _, _ => rfl
  | c :: lead, blank, rest => by
      rw [List.cons_append, words_blank (blank c List.mem_cons_self)]
      exact words_blanks (fun d mem => blank d (List.mem_cons_of_mem c mem)) rest

theorem words_append_blanks {tail : List Char} (blank : ∀ c ∈ tail, isSpace c = true)
    (text : List Char) : words (text ++ tail) = words text := by
  cases tail with
  | nil => rw [List.append_nil]
  | cons c tail =>
      have none : words tail = [] := by
        have := words_blanks (fun d mem => blank d (List.mem_cons_of_mem c mem)) []
        rwa [List.append_nil] at this
      rw [words_append_blank (blank c List.mem_cons_self), none, List.append_nil]

/-- A text without blanks is one word. -/
theorem words_solid : ∀ {word : List Char}, word ≠ [] → (∀ c ∈ word, isSpace c = false) →
    words word = [word]
  | [c], _, solid => by
      have one := solid c List.mem_cons_self
      rw [words, if_neg (by simp [one])]
      rfl
  | c :: d :: rest, _, solid => by
      have later := words_solid (List.cons_ne_nil d rest)
        fun e mem => solid e (List.mem_cons_of_mem c mem)
      have first := solid c List.mem_cons_self
      have second := solid d (List.mem_cons_of_mem c List.mem_cons_self)
      rw [words, if_neg (by simp [first]), if_neg (by simp [second]), later]

/-- Nothing but blanks is stripped. -/
theorem strip_shape (text : List Char) : ∃ lead tail, text = lead ++ strip text ++ tail ∧
    (∀ c ∈ lead, isSpace c = true) ∧ ∀ c ∈ tail, isSpace c = true := by
  refine ⟨text.takeWhile isSpace,
    ((text.dropWhile isSpace).reverse.takeWhile isSpace).reverse, ?_, ?_, ?_⟩
  · unfold strip stripOf
    rw [List.append_assoc, ← List.reverse_append, List.takeWhile_append_dropWhile,
      List.reverse_reverse, List.takeWhile_append_dropWhile]
  · exact fun c mem => List.mem_takeWhile_imp mem
  · intro c mem
    exact List.mem_takeWhile_imp (List.mem_reverse.mp mem)

theorem words_strip (text : List Char) : words (strip text) = words text := by
  obtain ⟨lead, tail, shape, front, back⟩ := strip_shape text
  have same : words text = words (lead ++ (strip text ++ tail)) := by
    rw [← List.append_assoc, ← shape]
  rw [same, words_blanks front, words_append_blanks back]

end OpsAssist.Theory.Text
