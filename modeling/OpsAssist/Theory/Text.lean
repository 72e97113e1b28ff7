/-
# OpsAssist.Theory.Text -- string methods over lists of characters

The string operations of the modelled language that Lean's library does not have in
the same form: stripping by that language's notion of blank, substring search, and
the database's `LIKE`.
-/
import Mathlib.Data.List.Infix

namespace OpsAssist.Theory.Text

set_option autoImplicit false

/-! ## Blanks -/

/-- The characters `str.isspace` accepts and `str.strip` removes. -/
def isSpace (c : Char) : Bool :=
  let n := c.toNat
  (9 ≤ n && n ≤ 13) || (28 ≤ n && n ≤ 32) || n == 0x85 || n == 0xa0 || n == 0x1680 ||
    (0x2000 ≤ n && n ≤ 0x200a) || n == 0x2028 || n == 0x2029 || n == 0x202f || n == 0x205f ||
    n == 0x3000

/-- The text without the characters of a class at either end. -/
def stripOf (p : Char → Bool) (text : List Char) : List Char :=
  ((text.dropWhile p).reverse.dropWhile p).reverse

/-- `str.strip()` -/
def strip (text : List Char) : List Char := stripOf isSpace text

/-! ## Joining and splitting -/

/-- `text.split(sep)` for a separator of one character. -/
def splitOn (sep : Char) : List Char → List (List Char)
  | [] => [[]]
  | c :: rest =>
      if c = sep then [] :: splitOn sep rest
      else match splitOn sep rest with
        | [] => [[c]]
        | word :: words => (c :: word) :: words

/-- `sep.join(words)` -/
def join (sep : Char) (words : List (List Char)) : List Char := [sep].intercalate words

theorem splitOn_ne_nil (sep : Char) : ∀ text : List Char, splitOn sep text ≠ []
  | [] => List.cons_ne_nil _ _
  | c :: rest => by
      rw [splitOn]
      split
      · exact List.cons_ne_nil _ _
      · split
        · exact List.cons_ne_nil _ _
        · exact List.cons_ne_nil _ _

theorem splitOn_word {sep : Char} : ∀ {word : List Char}, sep ∉ word → splitOn sep word = [word]
  | [], _ => rfl
  | c :: word, free => by
      rw [splitOn, if_neg fun same => free (by rw [same]; exact List.mem_cons_self),
        splitOn_word fun mem => free (List.mem_cons_of_mem _ mem)]

theorem splitOn_append {sep : Char} (rest : List Char) : ∀ {word : List Char}, sep ∉ word →
    splitOn sep (word ++ sep :: rest) = word :: splitOn sep rest
  | [], _ => by
      rw [List.nil_append, splitOn, if_pos rfl]
  | c :: word, free => by
      rw [List.cons_append, splitOn, if_neg fun same => free (by rw [same]; exact List.mem_cons_self),
        splitOn_append rest fun mem => free (List.mem_cons_of_mem _ mem)]

/-- Some texts in a row, joined, are part of all of them joined. -/
theorem intercalate_part {s : String} {part whole : List String} (inside : part <:+: whole) :
    (s.intercalate part).toList <:+: (s.intercalate whole).toList := by
  obtain ⟨front, back, rfl⟩ := inside
  by_cases none : part = []
  · rw [none, String.intercalate_nil]
    exact ⟨[], _, rfl⟩
  have right : (s.intercalate part).toList <+: (s.intercalate (part ++ back)).toList := by
    by_cases last : back = []
    · rw [last, List.append_nil]
    · rw [String.intercalate_append_of_ne_nil none last]
      simp only [String.toList_append, List.append_assoc]
      exact List.prefix_append _ _
  refine right.isInfix.trans ?_
  rw [List.append_assoc]
  by_cases first : front = []
  · rw [first, List.nil_append]
  · rw [String.intercalate_append_of_ne_nil first (List.append_ne_nil_of_left_ne_nil none back)]
    simp only [String.toList_append]
    exact (List.suffix_append _ _).isInfix

/-- **Words without the separator are split as they were joined.** -/
theorem splitOn_join {sep : Char} : ∀ {words : List (List Char)}, words ≠ [] →
    (∀ word ∈ words, sep ∉ word) → splitOn sep (join sep words) = words
  | [word], _, free => by
      rw [join, List.intercalate_singleton]
      exact splitOn_word (free word List.mem_cons_self)
  | word :: next :: words, _, free => by
      have rest := splitOn_join (List.cons_ne_nil next words)
        fun w mem => free w (List.mem_cons_of_mem _ mem)
      rw [join, List.intercalate_cons_cons, List.append_assoc, List.singleton_append,
        splitOn_append _ (free word List.mem_cons_self)]
      exact congrArg (word :: ·) rest

/-- `text.split()`: the runs of characters that are not blank. -/
def words : List Char → List (List Char)
  | [] => []
  | c :: rest =>
      if isSpace c then words rest
      else if (rest.head?.map isSpace).getD true then [c] :: words rest
      else match words rest with
        | [] => [[c]]
        | word :: more => (c :: word) :: more

/-- The characters `str.splitlines` ends a line at. -/
def isLineBreak (c : Char) : Bool :=
  let n := c.toNat
  (10 ≤ n && n ≤ 13) || (28 ≤ n && n ≤ 30) || n == 0x85 || n == 0x2028 || n == 0x2029

/-- `text.splitlines()`; a carriage return and a line feed are one end. -/
def splitlines : List Char → List (List Char)
  | [] => []
  | '\r' :: '\n' :: rest => [] :: splitlines rest
  | c :: rest =>
      if isLineBreak c then [] :: splitlines rest
      else match splitlines rest with
        | [] => [[c]]
        | line :: lines => (c :: line) :: lines

/-- `text.partition(sep)`: what stands before the first separator, and after it. -/
def partition (sep : Char) : List Char → List Char × Option (List Char)
  | [] => ([], none)
  | c :: rest =>
      if c = sep then ([], some rest)
      else ((c :: (partition sep rest).1), (partition sep rest).2)

/-- What stands before the first occurrence of a text, and after it. -/
def cut (needle : List Char) : List Char → Option (List Char × List Char)
  | [] => if needle = [] then some ([], []) else none
  | c :: rest =>
      if needle.isPrefixOf (c :: rest) then some ([], (c :: rest).drop needle.length)
      else (cut needle rest).map fun (before, after) => (c :: before, after)

/-! ## Substrings -/

/-- `needle in text` -/
def contains (needle : List Char) : List Char → Bool
  | [] => needle.isEmpty
  | c :: rest => needle.isPrefixOf (c :: rest) || contains needle rest

/-- `text LIKE pattern` with the default escape character.  A pattern that ends in a
single escape, which the database refuses, matches nothing here. -/
def like : List Char → List Char → Bool
  | [], text => text.isEmpty
  | '%' :: pattern, text => text.tails.any (like pattern)
  | '_' :: pattern, text =>
      match text with
      | [] => false
      | _ :: rest => like pattern rest
  | ['\\'], _ => false
  | '\\' :: c :: pattern, text =>
      match text with
      | [] => false
      | d :: rest => c == d && like pattern rest
  | c :: pattern, text =>
      match text with
      | [] => false
      | d :: rest => c == d && like pattern rest

example : like "%n_x\\%%".toList "linux%".toList = true := by decide

end OpsAssist.Theory.Text
