/-
# OpsAssist.Theory.Lines -- a text as its lines

A text is its lines joined by a separator, and splitting it there gives them back.  On lines,
looking for a separator with a mark behind it is looking for the first line that begins with
the mark (`cut_lines`).
-/
import OpsAssist.Theory.Markup
import OpsAssist.Theory.Text

namespace OpsAssist.Theory.Text

set_option autoImplicit false

variable {sep : Char}

/-- Lines, each behind a separator. -/
def under (sep : Char) (lines : List (List Char)) : List Char :=
  lines.flatMap fun line => sep :: line

@[simp] theorem under_nil : under sep [] = [] := rfl

@[simp] theorem under_cons (line : List Char) (lines : List (List Char)) :
    under sep (line :: lines) = sep :: (line ++ under sep lines) := by
  simp [under]

theorem under_append (front back : List (List Char)) :
    under sep (front ++ back) = under sep front ++ under sep back := List.flatMap_append

theorem join_cons (line : List Char) : ∀ lines : List (List Char),
    join sep (line :: lines) = line ++ under sep lines
  | [] => by simp [join]
  | next :: lines => by
      have rest := join_cons next lines
      unfold join at rest ⊢
      rw [List.intercalate_cons_cons, rest, under_cons]
      simp

theorem join_append {front back : List (List Char)} (some_front : front ≠ [])
    (some_back : back ≠ []) : join sep (front ++ back) = join sep front ++ sep :: join sep back := by
  obtain ⟨first, front, rfl⟩ := List.exists_cons_of_ne_nil some_front
  obtain ⟨next, back, rfl⟩ := List.exists_cons_of_ne_nil some_back
  rw [List.cons_append, join_cons, join_cons, join_cons, under_append, under_cons,
    List.append_assoc]

/-- Whatever a text begins with, splitting it gives a first line and others. -/
theorem splitOn_cases (text : List Char) : ∃ line lines, splitOn sep text = line :: lines := by
  cases shape : splitOn sep text with
  | nil => exact absurd shape (splitOn_ne_nil sep text)
  | cons line lines => exact ⟨line, lines, rfl⟩

theorem splitOn_append_sep (back : List Char) : ∀ front : List Char,
    splitOn sep (front ++ sep :: back) = splitOn sep front ++ splitOn sep back
  | [] => by simp [splitOn]
  | c :: front => by
      rw [List.cons_append, splitOn, splitOn, splitOn_append_sep back front]
      by_cases here : c = sep
      · simp [here]
      · obtain ⟨line, lines, shape⟩ := @splitOn_cases sep front
        simp [here, shape]

theorem join_splitOn : ∀ text : List Char, join sep (splitOn sep text) = text
  | [] => by simp [splitOn, join]
  | c :: rest => by
      have ih := join_splitOn rest
      obtain ⟨line, lines, shape⟩ := @splitOn_cases sep rest
      rw [shape, join_cons] at ih
      rw [splitOn, shape]
      by_cases here : c = sep
      · rw [if_pos here, join_cons, under_cons, ih, here]
        rfl
      · rw [if_neg here, join_cons, ← ih]
        rfl

theorem sep_not_mem_splitOn : ∀ {text : List Char}, ∀ line ∈ splitOn sep text, sep ∉ line
  | [], line, mem => by
      rw [splitOn, List.mem_singleton] at mem
      rw [mem]
      exact List.not_mem_nil
  | c :: rest, line, mem => by
      have ih := @sep_not_mem_splitOn rest
      rw [splitOn] at mem
      by_cases here : c = sep
      · rw [if_pos here] at mem
        rcases List.mem_cons.mp mem with rfl | mem
        · exact List.not_mem_nil
        · exact ih line mem
      · obtain ⟨first, lines, shape⟩ := @splitOn_cases sep rest
        rw [if_neg here, shape] at mem
        rw [shape] at ih
        rcases List.mem_cons.mp mem with rfl | mem
        · rw [List.mem_cons, not_or]
          exact ⟨Ne.symm here, ih first List.mem_cons_self⟩
        · exact ih line (List.mem_cons_of_mem _ mem)

/-- Joined lines without the separator are split again. -/
theorem splitOn_under {line : List Char} {lines : List (List Char)} (free : sep ∉ line)
    (frees : ∀ l ∈ lines, sep ∉ l) : splitOn sep (line ++ under sep lines) = line :: lines := by
  rw [← join_cons]
  refine splitOn_join (List.cons_ne_nil _ _) fun l mem => ?_
  rcases List.mem_cons.mp mem with rfl | mem
  · exact free
  · exact frees l mem

/-! ## Finding a line -/

/-- A part without a needle's first character is passed. -/
theorem cut_skip {needle : List Char} {c : Char} (first : needle.head? = some c)
    (rest : List Char) : ∀ {front : List Char}, c ∉ front → cut needle (front ++ rest) =
      (cut needle rest).map fun (before, after) => (front ++ before, after)
  | [], _ => by simp
  | d :: front, free => by
      have other := Markup.isPrefixOf_cons_false first (fun same => free (same ▸ List.mem_cons_self))
        (front ++ rest)
      rw [List.cons_append, cut, if_neg (by rw [other]; exact Bool.false_ne_true),
        cut_skip first rest fun mem => free (List.mem_cons_of_mem _ mem), Option.map_map]
      rfl

theorem cut_sound {needle : List Char} : ∀ {text before after : List Char},
    cut needle text = some (before, after) → text = before ++ (needle ++ after)
  | [], before, after, found => by
      rw [cut] at found
      split at found
      · rename_i empty
        cases found
        rw [empty]
        rfl
      · cases found
  | c :: rest, before, after, found => by
      rw [cut] at found
      by_cases here : needle.isPrefixOf (c :: rest) = true
      · rw [if_pos here, Option.some.injEq, Prod.mk.injEq] at found
        obtain ⟨rfl, rfl⟩ := found
        exact List.prefix_iff_eq_append.mp (List.isPrefixOf_iff_prefix.mp here) |>.symm
      · rw [if_neg here] at found
        obtain ⟨⟨b, a⟩, later, shape⟩ := Option.map_eq_some_iff.mp found
        cases shape
        rw [cut_sound later]
        rfl

theorem partition_some {c : Char} : ∀ {line front back : List Char},
    partition c line = (front, some back) → line = front ++ c :: back
  | d :: line, front, back, split => by
      rw [partition] at split
      by_cases here : d = c
      · rw [if_pos here, Prod.mk.injEq, Option.some.injEq] at split
        obtain ⟨rfl, rfl⟩ := split
        rw [here]
        rfl
      · rw [if_neg here, Prod.mk.injEq] at split
        obtain ⟨rfl, later⟩ := split
        exact congrArg (d :: ·) (partition_some (Prod.ext rfl later))

/-- A mark without the separator stands at a line's beginning or not at all. -/
theorem isPrefixOf_under {lines : List (List Char)} : ∀ {mark line : List Char}, sep ∉ mark →
    mark.isPrefixOf (line ++ under sep lines) = mark.isPrefixOf line
  | [], _, _ => by simp
  | c :: mark, [], free => by
      cases lines with
      | nil => rfl
      | cons l lines =>
          have other : c ≠ sep := fun same => free (same ▸ List.mem_cons_self)
          rw [List.nil_append, under_cons, Markup.isPrefixOf_cons_false rfl other]
          rfl
  | c :: mark, d :: line, free => by
      have ih := @isPrefixOf_under lines mark line fun mem => free (List.mem_cons_of_mem _ mem)
      simp only [List.cons_append, List.isPrefixOf_cons_cons, ih]

/-- **Looking for a marked line**: the first one, if there is one. -/
theorem cut_lines {mark : List Char} (free : sep ∉ mark) : ∀ {lines : List (List Char)},
    (∀ l ∈ lines, sep ∉ l) → cut (sep :: mark) (under sep lines) =
      match lines.dropWhile fun l => !mark.isPrefixOf l with
      | [] => none
      | l :: after => some (under sep (lines.takeWhile fun l => !mark.isPrefixOf l),
          l.drop mark.length ++ under sep after)
  | [], _ => rfl
  | line :: lines, frees => by
      have free_line := frees line List.mem_cons_self
      have ih := cut_lines free fun l mem => frees l (List.mem_cons_of_mem _ mem)
      have front : (sep :: mark).isPrefixOf (sep :: (line ++ under sep lines)) =
          mark.isPrefixOf line := by
        rw [List.isPrefixOf_cons_cons, beq_self_eq_true, Bool.true_and, isPrefixOf_under free]
      rw [under_cons, cut, front]
      by_cases marked : mark.isPrefixOf line = true
      · have short : mark.length ≤ line.length := (List.isPrefixOf_iff_prefix.mp marked).length_le
        simp [marked, List.drop_append_of_le_length short]
      · rw [if_neg marked, cut_skip rfl _ free_line, ih]
        rw [Bool.not_eq_true] at marked
        simp only [List.dropWhile_cons, List.takeWhile_cons, marked, Bool.not_false, if_true]
        split <;> simp

/-! ## Parts of a line -/

/-- A part of a text without the separator lies on one side of it. -/
theorem part_sep {m back : List Char} (free : sep ∉ m) : ∀ {front : List Char},
    m <:+: front ++ sep :: back → m <:+: front ∨ m <:+: back
  | [], inside => by
      rcases List.infix_cons_iff.mp inside with ⟨rest, shape⟩ | later
      · cases m with
        | nil => exact .inl (List.nil_infix)
        | cons c m => exact absurd (by simp [(List.cons.inj shape).1]) free
      · exact .inr later
  | c :: front, inside => by
      rcases List.infix_cons_iff.mp inside with opens | later
      · by_cases short : m.length ≤ (c :: front).length
        · exact .inl (List.prefix_of_prefix_length_le opens
            (List.prefix_append (c :: front) (sep :: back)) short).isInfix
        · have past : c :: front ++ [sep] <+: m := by
            have whole : c :: front ++ [sep] <+: c :: front ++ sep :: back := ⟨back, by simp⟩
            refine List.prefix_of_prefix_length_le whole opens ?_
            simp only [List.length_append, List.length_singleton]
            omega
          exact absurd (past.subset (by simp)) free
      · rcases part_sep free later with left | right
        · exact .inl (left.trans (List.suffix_cons c front).isInfix)
        · exact .inr right

/-- **A part without the separator is part of a line.** -/
theorem part_join_iff {m : List Char} (free : sep ∉ m) (some_char : m ≠ []) :
    ∀ {lines : List (List Char)}, m <:+: join sep lines ↔ ∃ l ∈ lines, m <:+: l
  | [] => by simp [join, some_char]
  | [line] => by simp [join]
  | line :: next :: lines => by
      have cons : join sep (line :: next :: lines) = line ++ sep :: join sep (next :: lines) := by
        rw [join_cons, join_cons, under_cons]
      have ih := @part_join_iff m free some_char (next :: lines)
      rw [cons, List.exists_mem_cons_iff, ← ih]
      refine ⟨part_sep free, ?_⟩
      rintro (left | right)
      · exact left.trans (List.prefix_append line _).isInfix
      · exact right.trans ⟨line ++ [sep], [], by simp⟩

end OpsAssist.Theory.Text
