/-
# OpsAssist.Knowledge.DocKeys -- allocated keys, and the keys the parser accepts

`next_doc_key` makes a key of three letters of the department and the next number;
`DocumentMeta` accepts capital letters and exactly three digits.  `next_key_accepted_iff`
says for which departments and which keys in use the two agree.

Pole: `underscore_key_refused`, the first key of a department of the sample data.
-/
import Mathlib.Data.List.TakeWhile
import OpsAssist.Knowledge.Upload
import OpsAssist.Theory.Like

namespace OpsAssist.Upload

set_option autoImplicit false

open Theory Numeral Letters

/-! ## What the parser accepts -/

/-- `[A-Z]+-[0-9]{3}` -/
def lettersAndNumber (rest : List Char) : Bool :=
  let letters := rest.takeWhile Char.isUpper
  letters ≠ [] &&
    match rest.drop letters.length with
    | '-' :: digits => digits.all Char.isDigit && digits.length == 3
    | _ => false

/-- `DocumentMeta.document_id`: `^KB-[A-Z]+-[0-9]{3}$` -/
def isDocKey : List Char → Bool
  | 'K' :: 'B' :: '-' :: rest => lettersAndNumber rest
  | _ => false

/-- Letters that are capital, a dash and a number: the number has three digits. -/
theorem lettersAndNumber_iff {letters digits : List Char} (some_letter : letters ≠ [])
    (number : ∀ c ∈ digits, c.isDigit = true) :
    lettersAndNumber (letters ++ '-' :: digits) = true ↔
      (∀ c ∈ letters, c.isUpper = true) ∧ digits.length = 3 := by
  by_cases capital : ∀ c ∈ letters, c.isUpper = true
  · have taken : (letters ++ '-' :: digits).takeWhile Char.isUpper = letters := by
      rw [List.takeWhile_append_of_pos capital]
      simp
    have behind : (letters ++ '-' :: digits).drop letters.length = '-' :: digits :=
      List.drop_left' rfl
    simp only [lettersAndNumber, taken, behind]
    simpa [some_letter, List.all_eq_true.mpr number] using fun _ => capital
  · refine iff_of_false ?_ fun both => capital both.1
    have split := (List.takeWhile_append_dropWhile (p := Char.isUpper) (l := letters)).symm
    cases after : letters.dropWhile Char.isUpper with
    | nil => exact absurd (List.dropWhile_eq_nil_iff.mp after) capital
    | cons c back =>
        have other := List.head?_dropWhile_not Char.isUpper letters
        rw [after] at other split
        have small : c.isUpper = false := other
        have upper : ∀ d ∈ letters.takeWhile Char.isUpper, d.isUpper = true := fun d mem =>
          List.mem_takeWhile_imp mem
        generalize letters.takeWhile Char.isUpper = front at split upper
        subst split
        have taken : ((front ++ c :: back) ++ '-' :: digits).takeWhile Char.isUpper = front := by
          rw [List.append_assoc, List.takeWhile_append_of_pos upper, List.cons_append,
            List.takeWhile_cons_of_neg (by simp [small]), List.append_nil]
        have behind : ((front ++ c :: back) ++ '-' :: digits).drop front.length =
            c :: (back ++ '-' :: digits) := by
          rw [List.append_assoc, List.drop_left' rfl, List.cons_append]
        simp only [lettersAndNumber, taken, behind]
        -- a dash among the letters leaves another dash among the digits
        by_cases dash : c = '-'
        · subst dash
          simp
        · split <;> simp_all

/-! ## Case -/

/-- `str.upper` of an ASCII name. -/
def UpperAscii (host : Host) : Prop :=
  ∀ name : List Char, (∀ c ∈ name, c.isLower = true ∨ c = '_') →
    host.upper name = name.map Char.toUpper

/-! ## The next key -/

/-- `int(k.rsplit("-", 1)[1])` of a key that ends in a number. -/
def keyNumber (k : String) : Option Nat :=
  let digits := (k.toList.reverse.takeWhile fun c => c ≠ '-').reverse
  if digits ≠ [] ∧ digits.all Char.isDigit then some (value digits) else none

/-- The letters an allocated key begins with. -/
def keyOpening (department : String) : List Char :=
  "KB-".toList ++ (department.toList.take 3).map Char.toUpper

def usedNumbers (visible : List String) (opening : List Char) : List Nat :=
  (visible.filter fun k => Text.like (opening ++ "-%".toList) k.toList).filterMap keyNumber

def lastNumber (numbers : List Nat) : Nat := if numbers = [] then 100 else numbers.foldl max 0

theorem isSlug_iff {name : List Char} : isSlug name = true ↔
    ∃ c rest, name = c :: rest ∧ c.isLower = true ∧ ∀ d ∈ rest, d.isLower = true ∨ d = '_' := by
  cases name with
  | nil => simp [isSlug]
  | cons c rest => simp [isSlug]

section

variable {host : Host} (upper : UpperAscii host) {department : String}
  (slug : isSlug department.toList = true)

include slug in
/-- The first letters of a department: some, all small letters or underscores. -/
theorem slug_opening : department.toList.take 3 ≠ [] ∧
    ∀ c ∈ department.toList.take 3, c.isLower = true ∨ c = '_' := by
  obtain ⟨c, rest, name, lower, others⟩ := isSlug_iff.mp slug
  rw [name]
  refine ⟨by simp, ?_⟩
  intro d mem
  rcases List.mem_cons.mp (List.mem_of_mem_take mem) with rfl | inside
  · exact .inl lower
  · exact others d inside

include upper slug in
theorem nextDocKey_eq (visible : List String) :
    nextDocKey host visible department = String.ofList (keyOpening department ++
      '-' :: zeroPad 3 (lastNumber (usedNumbers visible (keyOpening department)) + 1)) := by
  have same := upper _ (slug_opening slug).2
  unfold nextDocKey
  rw [same]
  rfl

end

/-- A key is accepted when its letters are capital and its number has three digits. -/
theorem isDocKey_iff {letters : List Char} (some_letter : letters ≠ []) (n : Nat) :
    isDocKey ("KB-".toList ++ letters ++ '-' :: zeroPad 3 n) = true ↔
      (∀ c ∈ letters, c.isUpper = true) ∧ n < 1000 := by
  have size : (zeroPad 3 n).length = 3 ↔ n < 1000 := by
    rw [← Nat.length_toDigits_le_iff (b := 10) (k := 3) (by decide) (by decide)]
    simp only [zeroPad, List.length_append, List.length_replicate, Numeral.decimal]
    omega
  rw [← size, ← lettersAndNumber_iff some_letter fun c mem => isDigit_of_mem_zeroPad mem]
  rfl

theorem upper_of_slug {name : List Char} (slug : ∀ c ∈ name, c.isLower = true ∨ c = '_') :
    (∀ c ∈ name.map Char.toUpper, c.isUpper = true) ↔ ∀ c ∈ name, c ≠ '_' := by
  rw [List.forall_mem_map]
  refine forall₂_congr fun c mem => ?_
  rcases slug c mem with lower | rfl
  · refine iff_of_true (isUpper_toUpper lower) ?_
    rintro rfl
    cases lower
  · decide

/-- The number of an allocated key. -/
theorem keyNumber_allocated (opening : List Char) (n : Nat) :
    keyNumber (String.ofList (opening ++ '-' :: zeroPad 3 n)) = some n := by
  have digits : ((opening ++ '-' :: zeroPad 3 n).reverse.takeWhile fun c => c ≠ '-').reverse =
      zeroPad 3 n := by
    rw [List.reverse_append, List.reverse_cons, List.append_assoc,
      List.takeWhile_append_of_pos, List.singleton_append, List.takeWhile_cons_of_neg (by simp),
      List.append_nil, List.reverse_reverse]
    intro c mem
    have digit := isDigit_of_mem_zeroPad (List.mem_reverse.mp mem)
    simp only [ne_eq, decide_not, Bool.not_eq_eq_eq_not, Bool.not_true, decide_eq_false_iff_not]
    rintro rfl
    cases digit
  have some_digit : zeroPad 3 n ≠ [] := List.append_ne_nil_of_right_ne_nil _ (decimal_ne_nil n)
  rw [keyNumber, String.toList_ofList, digits,
    if_pos ⟨some_digit, List.all_eq_true.mpr fun c mem => isDigit_of_mem_zeroPad mem⟩,
    value_zeroPad]

theorem lastNumber_lt_iff {numbers : List Nat} {bound : Nat} (large : 100 < bound) :
    lastNumber numbers < bound ↔ ∀ n ∈ numbers, n < bound := by
  unfold lastNumber
  by_cases empty : numbers = []
  · rw [if_pos empty, empty]
    simpa using large
  · rw [if_neg empty, ← Nat.le_sub_one_iff_lt (by omega), foldl_max_le]
    constructor
    · intro low n mem
      have := low.2 n mem
      omega
    · intro low
      exact ⟨by omega, fun n mem => by have := low n mem; omega⟩

theorem le_lastNumber {numbers : List Nat} {n : Nat} (mem : n ∈ numbers) :
    n ≤ lastNumber numbers := by
  rw [lastNumber, if_neg (List.ne_nil_of_mem mem)]
  exact (foldl_max_le.mp (Nat.le_refl _)).2 n mem

/-- The keys whose numbers count, for letters that are no wildcards. -/
theorem mem_usedNumbers {visible : List String} {opening : List Char} {n : Nat}
    (plain : ∀ c ∈ opening, c ≠ '%' ∧ c ≠ '_' ∧ c ≠ '\\') :
    n ∈ usedNumbers visible opening ↔
      ∃ k ∈ visible, opening ++ ['-'] <+: k.toList ∧ keyNumber k = some n := by
  have dash : ∀ c ∈ opening ++ ['-'], c ≠ '%' ∧ c ≠ '_' ∧ c ≠ '\\' := by
    intro c mem
    rcases List.mem_append.mp mem with inside | last
    · exact plain c inside
    · rw [List.mem_singleton.mp last]
      decide
  have pattern : opening ++ "-%".toList = (opening ++ ['-']) ++ ['%'] := by simp
  unfold usedNumbers
  simp only [List.mem_filterMap, List.mem_filter, pattern, Text.like_opening dash,
    List.isPrefixOf_iff_prefix, and_assoc]

/-- **The allocated key is accepted, and new, exactly for a department without underscore in
its first three letters while no key of these letters has the number 999 or more.** -/
theorem next_key_accepted_iff {host : Host} (upper : UpperAscii host) {department : String}
    (slug : isSlug department.toList = true) (visible : List String) :
    isDocKey (nextDocKey host visible department).toList = true ∧
        nextDocKey host visible department ∉ visible ↔
      (∀ c ∈ department.toList.take 3, c ≠ '_') ∧
        ∀ k ∈ visible, keyOpening department ++ ['-'] <+: k.toList →
          ∀ n, keyNumber k = some n → n < 999 := by
  obtain ⟨some_letter, letters⟩ := slug_opening slug
  have accepted : isDocKey (nextDocKey host visible department).toList = true ↔
      (∀ c ∈ department.toList.take 3, c ≠ '_') ∧
        lastNumber (usedNumbers visible (keyOpening department)) + 1 < 1000 := by
    rw [nextDocKey_eq upper slug, String.toList_ofList, keyOpening,
      isDocKey_iff (by simpa using some_letter), upper_of_slug letters]
  by_cases scored : ∀ c ∈ department.toList.take 3, c ≠ '_'
  · have plain : ∀ c ∈ keyOpening department, c ≠ '%' ∧ c ≠ '_' ∧ c ≠ '\\' := by
      have table : ∀ c : Char, c.isUpper = true → c ≠ '%' ∧ c ≠ '_' ∧ c ≠ '\\' := by
        rintro c capital
        refine ⟨?_, ?_, ?_⟩ <;> rintro rfl <;> cases capital
      intro c mem
      rcases List.mem_append.mp mem with front | letter
      · have fixed : c = 'K' ∨ c = 'B' ∨ c = '-' := by simpa using front
        rcases fixed with rfl | rfl | rfl <;> decide
      · exact table c ((upper_of_slug letters).mpr scored c letter)
    have numbers : lastNumber (usedNumbers visible (keyOpening department)) + 1 < 1000 ↔
        ∀ k ∈ visible, keyOpening department ++ ['-'] <+: k.toList →
          ∀ n, keyNumber k = some n → n < 999 := by
      rw [Nat.succ_lt_succ_iff, lastNumber_lt_iff (by decide)]
      constructor
      · intro low k mem begins n number
        exact low n ((mem_usedNumbers plain).mpr ⟨k, mem, begins, number⟩)
      · intro low n mem
        obtain ⟨k, there, begins, number⟩ := (mem_usedNumbers plain).mp mem
        exact low k there begins n number
    have new : nextDocKey host visible department ∉ visible := by
      intro old
      have counted : lastNumber (usedNumbers visible (keyOpening department)) + 1 ∈
          usedNumbers visible (keyOpening department) := by
        refine (mem_usedNumbers plain).mpr ⟨_, old, ?_, ?_⟩
        · rw [nextDocKey_eq upper slug, String.toList_ofList]
          exact ⟨_, by rw [List.append_assoc, List.singleton_append]⟩
        · rw [nextDocKey_eq upper slug, keyNumber_allocated]
      have bounded := le_lastNumber counted
      omega
    rw [accepted, numbers]
    exact and_iff_left new
  · exact iff_of_false (fun both => scored (accepted.mp both.1).1) fun both => scored both.1

/-! ## Poles -/

theorem plain_upper : UpperAscii .plain := fun _ _ => rfl

theorem next_key_accepted_pole :
    isDocKey (nextDocKey .plain ["KB-HR-007", "KB-FIN-999"] "hr").toList = true ∧
      nextDocKey .plain ["KB-HR-007", "KB-FIN-999"] "hr" ∉ ["KB-HR-007", "KB-FIN-999"] :=
  (next_key_accepted_iff plain_upper (by decide) _).mpr ⟨by simp, by decide⟩

/-- The first key for IT Operations, `KB-IT_-101`, is refused. -/
theorem underscore_key_refused :
    ¬∀ (department : String) (visible : List String), isSlug department.toList = true →
      isDocKey (nextDocKey .plain visible department).toList = true := by
  intro all
  have accepted := all "it_ops" [] (by decide)
  revert accepted
  decide

end OpsAssist.Upload
