/-
# OpsAssist.Knowledge.Secrets -- what the credential scan sees, and what ingestion finds

An upload is scanned as it came; what is indexed is normalized, cut into blocks and titled.
Three of the four patterns cannot see how words are spaced (`Blind`), so they match the
normalized text where they match it before its lines are tidied (`spelt_words`), and a block
only where they match the text (`spelt_part`).  `body_lines` says which lines of a stored text
stand behind its header; `extract_markdown` and `extract_text` what is found in a file.
-/
import OpsAssist.Knowledge.FrontMatter
import OpsAssist.Theory.Blanks
import OpsAssist.Theory.Fields

namespace OpsAssist.Parsing

set_option autoImplicit false

open Theory Text Letters Upload

/-! ## Patterns that do not see spacing -/

/-- A pattern that reads a text as its flattened form, sees of the character before only whether
it is of a word, and still matches when more words follow. -/
structure Blind (u : Unicode) (m : Option Char → List Char → Bool) : Prop where
  before : ∀ {b b' : Option Char}, b.any u.isWord = b'.any u.isWord → ∀ text, m b text = m b' text
  nil : ∀ b, m b [] = false
  blank : ∀ b {c : Char}, isSpace c = true → ∀ rest, m b (c :: rest) = false
  flat : ∀ b text, m b (flatten text) = m b text
  more : ∀ b {text : List Char}, m b text = true → ∀ rest, m b (text ++ ' ' :: rest) = true

/-- White space is of no word. -/
def BlanksApart (u : Unicode) : Prop := ∀ c, isSpace c = true → u.isWord c = false

section

variable {u : Unicode} {m : Option Char → List Char → Bool}

theorem search_before (blind : Blind u m) {b b' : Option Char}
    (same : b.any u.isWord = b'.any u.isWord) : ∀ text, search m b text = search m b' text
  | [] => blind.before same []
  | c :: rest => by rw [search, search, blind.before same]

theorem search_blank (apart : BlanksApart u) (blind : Blind u m) (b : Option Char) {c : Char}
    (blank : isSpace c = true) (rest : List Char) :
    search m b (c :: rest) = search m none rest := by
  rw [search, blind.blank b blank, Bool.false_or]
  exact search_before blind (by simp [apart c blank]) rest

theorem search_nil (blind : Blind u m) (b : Option Char) : search m b [] = false := blind.nil b

theorem search_flatten (apart : BlanksApart u) (blind : Blind u m) :
    ∀ (text : List Char) (b : Option Char), search m b (flatten text) = search m b text
  | [], _ => rfl
  | c :: rest, b => by
      have ih := search_flatten apart blind rest
      by_cases blank : isSpace c = true
      · rw [search_blank apart blind b blank, ← ih none, flatten, if_pos blank]
        cases rest with
        | nil => simp [flatten, search_nil blind]
        | cons d rest =>
            by_cases next : isSpace d = true
            · rw [if_pos (by simpa using next)]
              rcases flatten_blank next rest with empty | ⟨more, shape⟩
              · rw [empty, search_nil blind, search_nil blind]
              · rw [shape, search_blank apart blind b (by decide),
                  search_blank apart blind none (by decide)]
            · rw [if_neg (by simpa using next), search_blank apart blind b (by decide)]
      · have flat := blind.flat b (c :: rest)
        rw [flatten_solid (Bool.eq_false_iff.mpr blank)] at flat ⊢
        rw [search, search, flat, ih]

theorem search_dropWhile (apart : BlanksApart u) (blind : Blind u m) : ∀ text : List Char,
    search m none (text.dropWhile isSpace) = search m none text
  | [] => rfl
  | c :: rest => by
      by_cases blank : isSpace c = true
      · rw [List.dropWhile_cons_of_pos blank, search_dropWhile apart blind rest,
          search_blank apart blind none blank]
      · rw [List.dropWhile_cons_of_neg blank]

theorem search_eq_words (apart : BlanksApart u) (blind : Blind u m) (text : List Char) :
    search m none text = search m none (join ' ' (words text)) := by
  rw [← search_dropWhile apart blind, ← search_flatten apart blind, flatten_dropWhile]

/-- **The same words, the same matches.** -/
theorem search_words (apart : BlanksApart u) (blind : Blind u m) {x y : List Char}
    (same : words x = words y) : search m none x = search m none y := by
  rw [search_eq_words apart blind, search_eq_words apart blind y, same]

theorem search_more (blind : Blind u m) (rest : List Char) : ∀ {text : List Char}
    {b : Option Char}, search m b text = true → search m b (text ++ ' ' :: rest) = true
  | [], b, found => by rw [search_nil blind] at found; cases found
  | c :: text, b, found => by
      rw [search, Bool.or_eq_true] at found
      rw [List.cons_append, search, Bool.or_eq_true]
      rcases found with here | later
      · exact .inl (blind.more b here rest)
      · exact .inr (search_more blind rest later)

theorem search_later (apart : BlanksApart u) (blind : Blind u m) {rest : List Char}
    (found : search m none rest = true) : ∀ (front : List Char) (b : Option Char),
      search m b (front ++ ' ' :: rest) = true
  | [], b => by rw [List.nil_append, search_blank apart blind b (by decide), found]
  | c :: front, b => by
      rw [List.cons_append, search, search_later apart blind found front (some c), Bool.or_true]

/-- **A match among some words in a row is a match among all.** -/
theorem search_part (apart : BlanksApart u) (blind : Blind u m) {x y : List Char}
    (inside : words x <:+: words y) (found : search m none x = true) :
    search m none y = true := by
  obtain ⟨front, back, shape⟩ := inside
  rw [search_eq_words apart blind] at found ⊢
  rw [← shape]
  cases middle : words x with
  | nil =>
      rw [middle] at found
      rw [join, List.intercalate_nil, search_nil blind] at found
      cases found
  | cons word more =>
      rw [middle] at found
      have behind : search m none (join ' ' ((word :: more) ++ back)) = true := by
        cases back with
        | nil => rwa [List.append_nil]
        | cons next back =>
            rw [join_append (by simp) (by simp)]
            exact search_more blind _ found
      cases front with
      | nil => simpa using behind
      | cons first front =>
          rw [List.append_assoc, join_append (by simp) (by simp)]
          exact search_later apart blind behind _ none

end

/-! ## The three patterns -/

/-- What the patterns need of Unicode: no letter of a keyword is white space. -/
structure Spacing (u : Unicode) : Prop where
  apart : BlanksApart u
  letter : ∀ c d, isSpace c = false → isSpace d = true → u.sameLetter c d = false

variable {u : Unicode}

theorem atBoundary_before {b b' : Option Char} (same : b.any u.isWord = b'.any u.isWord)
    (text : List Char) : atBoundary u b text = atBoundary u b' text := by
  rw [atBoundary, atBoundary, same]

theorem head_flatten (apart : BlanksApart u) (text : List Char) :
    (flatten text).head?.any u.isWord = text.head?.any u.isWord := by
  cases text with
  | nil => rfl
  | cons c rest =>
      by_cases blank : isSpace c = true
      · rcases flatten_blank blank rest with empty | ⟨more, shape⟩
        · rw [empty]
          simp [apart c blank]
        · rw [shape]
          simp [apart c blank, apart ' ' (by decide)]
      · rw [flatten_solid (Bool.eq_false_iff.mpr blank)]
        rfl

theorem atBoundary_flatten (apart : BlanksApart u) (b : Option Char) (text : List Char) :
    atBoundary u b (flatten text) = atBoundary u b text := by
  rw [atBoundary, atBoundary, head_flatten apart]

/-- The end of a text is a boundary as a space is. -/
theorem atBoundary_more (apart : BlanksApart u) (b : Option Char) (text rest : List Char) :
    atBoundary u b (text ++ ' ' :: rest) = atBoundary u b text := by
  cases text with
  | nil => simp [atBoundary, apart ' ' (by decide)]
  | cons c text => rfl

theorem isSpace_range {c : Char} (blank : isSpace c = true) : c.toNat ≤ 32 ∨ 133 ≤ c.toNat := by
  simp only [isSpace, Bool.or_eq_true, Bool.and_eq_true, decide_eq_true_eq, beq_iff_eq] at blank
  omega

theorem isTokenChar_blank {c : Char} (blank : isSpace c = true) : isTokenChar c = false := by
  rw [← Bool.not_eq_true]
  intro token
  have range := isSpace_range blank
  simp only [isTokenChar, Bool.or_eq_true, beq_iff_eq] at token
  rcases token with (letter | rfl) | rfl
  · have bounds := isAlphanum_range letter
    omega
  · simp [isSpace] at blank
  · simp [isSpace] at blank

theorem isPrefixOf_more {front text : List Char} (opens : front.isPrefixOf text = true)
    (rest : List Char) : front.isPrefixOf (text ++ rest) = true := by
  rw [List.isPrefixOf_iff_prefix] at opens ⊢
  exact opens.trans (List.prefix_append text rest)

theorem takeWhile_more {p : Char → Bool} (text rest : List Char) :
    (text.takeWhile p).length ≤ ((text ++ rest).takeWhile p).length := by
  induction text with
  | nil => simp
  | cons c text ih =>
      rw [List.cons_append, List.takeWhile_cons, List.takeWhile_cons]
      split
      · simpa using ih
      · simp

/-- Texts a pattern may begin with. -/
def Solid (opening : List Char) : Prop := opening ≠ [] ∧ ∀ c ∈ opening, isSpace c = false

theorem Solid.not_nil {opening : List Char} (solid : Solid opening) :
    opening.isPrefixOf [] = false := by
  obtain ⟨c, rest, rfl⟩ := List.exists_cons_of_ne_nil solid.1
  rfl

theorem Solid.not_blank {opening : List Char} (solid : Solid opening) {c : Char}
    (blank : isSpace c = true) (rest : List Char) : opening.isPrefixOf (c :: rest) = false := by
  obtain ⟨d, more, rfl⟩ := List.exists_cons_of_ne_nil solid.1
  refine Markup.isPrefixOf_cons_false rfl (fun same => ?_) rest
  have first := solid.2 d List.mem_cons_self
  rw [same, blank] at first
  cases first

/-- What follows an opening, in a flattened text. -/
theorem Solid.drop_flatten {opening : List Char} (solid : Solid opening) {text : List Char}
    (opens : opening.isPrefixOf text = true) :
    (flatten text).drop opening.length = flatten (text.drop opening.length) := by
  obtain ⟨rest, rfl⟩ := List.isPrefixOf_iff_prefix.mp opens
  rw [flatten_append solid.2, List.drop_left, List.drop_left]

theorem tokenOpenings_solid : ∀ p ∈ ["sk-ant", "sk-", "nvapi-", "ghp_", "xoxb-"],
    Solid p.toList := by
  simp [Solid, isSpace]

/-- One opening of a token. -/
def tokenAfter (p : String) (text : List Char) : Bool :=
  p.toList.isPrefixOf text && 16 ≤ ((text.drop p.length).takeWhile isTokenChar).length

theorem tokenAfter_flatten {p : String} (solid : Solid p.toList) (text : List Char) :
    tokenAfter p (flatten text) = tokenAfter p text := by
  unfold tokenAfter
  rw [isPrefixOf_flatten solid.2]
  by_cases opens : p.toList.isPrefixOf text = true
  · rw [← String.length_toList, solid.drop_flatten opens,
      takeWhile_flatten fun c => isTokenChar_blank]
  · simp [opens]

theorem tokenAfter_more {p : String} {text : List Char} (found : tokenAfter p text = true)
    (rest : List Char) : tokenAfter p (text ++ rest) = true := by
  unfold tokenAfter at found ⊢
  rw [Bool.and_eq_true, decide_eq_true_eq] at found ⊢
  refine ⟨isPrefixOf_more found.1 rest, ?_⟩
  have short := (List.isPrefixOf_iff_prefix.mp found.1).length_le
  rw [String.length_toList] at short
  rw [List.drop_append_of_le_length short]
  exact found.2.trans (takeWhile_more _ rest)

theorem blind_apiToken (spacing : Spacing u) : Blind u (apiToken u) where
  before same text := by rw [apiToken, apiToken, atBoundary_before same]
  nil b := by simp [apiToken]
  blank b c blank rest := by
    have none : (["sk-ant", "sk-", "nvapi-", "ghp_", "xoxb-"].any fun p =>
        tokenAfter p (c :: rest)) = false := by
      rw [List.any_eq_false]
      intro p mem
      simp [tokenAfter, (tokenOpenings_solid p mem).not_blank blank]
    exact Bool.and_eq_false_iff.mpr (.inr none)
  flat b text := by
    have same : (["sk-ant", "sk-", "nvapi-", "ghp_", "xoxb-"].any fun p =>
        tokenAfter p (flatten text)) = ["sk-ant", "sk-", "nvapi-", "ghp_", "xoxb-"].any fun p =>
        tokenAfter p text := by
      rw [Bool.eq_iff_iff, List.any_eq_true, List.any_eq_true]
      refine exists_congr fun p => and_congr_right fun mem => ?_
      rw [tokenAfter_flatten (tokenOpenings_solid p mem)]
    exact congrArg₂ and (atBoundary_flatten spacing.apart b text) same
  more b text found rest := by
    obtain ⟨boundary, some_token⟩ := Bool.and_eq_true_iff.mp found
    obtain ⟨p, mem, here⟩ := List.any_eq_true.mp some_token
    refine Bool.and_eq_true_iff.mpr ⟨?_, List.any_eq_true.mpr ⟨p, mem, tokenAfter_more here _⟩⟩
    rw [atBoundary_more spacing.apart, boundary]

theorem beginsWith_nil (text : List Char) : beginsWith u [] text = true := by simp [beginsWith]

theorem beginsWith_end (c : Char) (word : List Char) : beginsWith u (c :: word) [] = false := by
  simp [beginsWith]

theorem beginsWith_cons (c d : Char) (word text : List Char) :
    beginsWith u (c :: word) (d :: text) = (u.sameLetter c d && beginsWith u word text) := by
  simp only [beginsWith, List.length_cons, Nat.add_le_add_iff_right, List.zip_cons_cons,
    List.all_cons]
  cases u.sameLetter c d <;> simp

theorem beginsWith_flatten (spacing : Spacing u) : ∀ {word : List Char},
    (∀ c ∈ word, isSpace c = false) → ∀ text,
      beginsWith u word (flatten text) = beginsWith u word text
  | [], _, text => by rw [beginsWith_nil, beginsWith_nil]
  | c :: word, _, [] => rfl
  | c :: word, solid, d :: text => by
      have first := solid c List.mem_cons_self
      by_cases blank : isSpace d = true
      · rw [beginsWith_cons, spacing.letter c d first blank, Bool.false_and]
        rcases flatten_blank blank text with empty | ⟨more, shape⟩
        · rw [empty, beginsWith_end]
        · rw [shape, beginsWith_cons, spacing.letter c ' ' first (by decide), Bool.false_and]
      · rw [flatten_solid (Bool.eq_false_iff.mpr blank), beginsWith_cons, beginsWith_cons,
          beginsWith_flatten spacing fun e mem => solid e (List.mem_cons_of_mem c mem)]

/-- A keyword stands in characters that are no blanks. -/
theorem beginsWith_front (spacing : Spacing u) : ∀ {word : List Char},
    (∀ c ∈ word, isSpace c = false) → ∀ {text}, beginsWith u word text = true →
      ∃ front rest, text = front ++ rest ∧ front.length = word.length ∧
        ∀ c ∈ front, isSpace c = false
  | [], _, text, _ => ⟨[], text, rfl, rfl, nofun⟩
  | c :: word, _, [], begins => by
      rw [beginsWith_end] at begins
      cases begins
  | c :: word, solid, d :: text, begins => by
      rw [beginsWith_cons, Bool.and_eq_true] at begins
      obtain ⟨front, rest, rfl, length, inside⟩ := beginsWith_front spacing
        (fun e mem => solid e (List.mem_cons_of_mem c mem)) begins.2
      have letter : isSpace d = false := by
        rw [← Bool.not_eq_true]
        intro blank
        rw [spacing.letter c d (solid c List.mem_cons_self) blank] at begins
        cases begins.1
      exact ⟨d :: front, rest, rfl, by simp [length], by simpa [letter] using inside⟩

theorem beginsWith_more : ∀ {word text : List Char}, beginsWith u word text = true →
    ∀ rest, beginsWith u word (text ++ rest) = true
  | [], _, _, _ => beginsWith_nil _
  | c :: word, [], begins, _ => by
      rw [beginsWith_end] at begins
      cases begins
  | c :: word, d :: text, begins, rest => by
      rw [beginsWith_cons, Bool.and_eq_true] at begins
      rw [List.cons_append, beginsWith_cons, begins.1, beginsWith_more begins.2]
      rfl

/-- What follows a keyword assigns it a value. -/
def assigns (text : List Char) : Bool :=
  match text.dropWhile isSpace with
  | c :: value => (c == ':' || c == '=') &&
      6 ≤ ((value.dropWhile isSpace).takeWhile fun c => !isSpace c).length
  | [] => false

theorem assigns_flatten (text : List Char) : assigns (flatten text) = assigns text := by
  unfold assigns
  rw [dropWhile_flatten]
  have first := List.head?_dropWhile_not isSpace text
  cases shape : text.dropWhile isSpace with
  | nil => rfl
  | cons c value =>
      rw [shape] at first
      have solid : isSpace c = false := by simpa using first
      simp only [flatten_solid solid, dropWhile_flatten]
      rw [takeWhile_flatten (p := fun c => !isSpace c) (by simp)]

theorem assigns_more {text : List Char} (found : assigns text = true) (rest : List Char) :
    assigns (text ++ rest) = true := by
  unfold assigns at found ⊢
  cases shape : text.dropWhile isSpace with
  | nil => simp [shape] at found
  | cons c value =>
      rw [shape] at found
      simp only [Bool.and_eq_true, decide_eq_true_eq] at found
      have whole : (text ++ rest).dropWhile isSpace = c :: (value ++ rest) := by
        rw [List.dropWhile_append, shape]
        rfl
      rw [whole]
      simp only [Bool.and_eq_true, decide_eq_true_eq]
      refine ⟨found.1, ?_⟩
      have some_value : value.dropWhile isSpace ≠ [] := fun empty => by
        simp [empty] at found
      rw [List.dropWhile_append, if_neg (by simpa using some_value)]
      exact found.2.trans (takeWhile_more _ rest)

/-- One keyword of an assignment. -/
def assignedAfter (u : Unicode) (word : String) (text : List Char) : Bool :=
  beginsWith u word.toList text && assigns (text.drop word.length)

def KEYWORDS : List String := ["password", "passwd", "secret", "apikey", "api_key", "api-key"]

theorem keywords_solid : ∀ word ∈ KEYWORDS, Solid word.toList := by
  simp [KEYWORDS, Solid, isSpace]

theorem assignedSecret_eq (b : Option Char) (text : List Char) : assignedSecret u b text =
    (atBoundary u b text && KEYWORDS.any fun word => assignedAfter u word text) := rfl

theorem assignedAfter_flatten (spacing : Spacing u) {word : String} (solid : Solid word.toList)
    (text : List Char) : assignedAfter u word (flatten text) = assignedAfter u word text := by
  unfold assignedAfter
  rw [beginsWith_flatten spacing solid.2]
  by_cases begins : beginsWith u word.toList text = true
  · obtain ⟨front, rest, rfl, length, inside⟩ := beginsWith_front spacing solid.2 begins
    rw [String.length_toList] at length
    rw [flatten_append inside, ← length, List.drop_left, List.drop_left, assigns_flatten]
  · simp [begins]

theorem assignedAfter_more {word : String} {text : List Char}
    (found : assignedAfter u word text = true) (rest : List Char) :
    assignedAfter u word (text ++ rest) = true := by
  unfold assignedAfter at found ⊢
  rw [Bool.and_eq_true] at found ⊢
  refine ⟨beginsWith_more found.1 rest, ?_⟩
  have short : word.length ≤ text.length := by
    have begins := found.1
    simp only [beginsWith, Bool.and_eq_true, decide_eq_true_eq, String.length_toList] at begins
    exact begins.1
  rw [List.drop_append_of_le_length short]
  exact assigns_more found.2 rest

theorem blind_assignedSecret (spacing : Spacing u) : Blind u (assignedSecret u) where
  before same text := by rw [assignedSecret_eq, assignedSecret_eq, atBoundary_before same]
  nil b := by
    have none : (KEYWORDS.any fun word => assignedAfter u word []) = false := by
      rw [List.any_eq_false]
      intro word mem
      obtain ⟨c, rest, shape⟩ := List.exists_cons_of_ne_nil (keywords_solid word mem).1
      simp [assignedAfter, shape, beginsWith_end]
    rw [assignedSecret_eq, none, Bool.and_false]
  blank b c blank rest := by
    have none : (KEYWORDS.any fun word => assignedAfter u word (c :: rest)) = false := by
      rw [List.any_eq_false]
      intro word mem
      have solid := keywords_solid word mem
      obtain ⟨d, more, shape⟩ := List.exists_cons_of_ne_nil solid.1
      rw [shape] at solid
      simp [assignedAfter, shape, beginsWith_cons,
        spacing.letter d c (solid.2 d List.mem_cons_self) blank]
    rw [assignedSecret_eq, none, Bool.and_false]
  flat b text := by
    have same : (KEYWORDS.any fun word => assignedAfter u word (flatten text)) =
        KEYWORDS.any fun word => assignedAfter u word text := by
      rw [Bool.eq_iff_iff, List.any_eq_true, List.any_eq_true]
      refine exists_congr fun word => and_congr_right fun mem => ?_
      rw [assignedAfter_flatten spacing (keywords_solid word mem)]
    rw [assignedSecret_eq, assignedSecret_eq, atBoundary_flatten spacing.apart, same]
  more b text found rest := by
    rw [assignedSecret_eq, Bool.and_eq_true] at found ⊢
    obtain ⟨word, mem, here⟩ := List.any_eq_true.mp found.2
    refine ⟨?_, List.any_eq_true.mpr ⟨word, mem, assignedAfter_more here _⟩⟩
    rw [atBoundary_more spacing.apart, found.1]

/-- The characters of an access key. -/
def isKeyChar (c : Char) : Bool := c.isDigit || c.isUpper

/-- An access key stands here, and a boundary behind it. -/
def KeyAt (u : Unicode) (text : List Char) : Prop :=
  ∃ key rest, text = "AKIA".toList ++ key ++ rest ∧ key.length = 16 ∧
    (∀ c ∈ key, isKeyChar c = true) ∧ atBoundary u key.getLast? rest = true

theorem accessKey_iff (b : Option Char) (text : List Char) :
    accessKey u b text = true ↔ atBoundary u b text = true ∧ KeyAt u text := by
  simp only [accessKey, Bool.and_eq_true, beq_iff_eq, List.all_eq_true]
  constructor
  · rintro ⟨⟨⟨⟨boundary, opens⟩, length⟩, inside⟩, behind⟩
    refine ⟨boundary, (text.drop 4).take 16, text.drop 20, ?_, length, inside, behind⟩
    have split := List.prefix_iff_eq_append.mp (List.isPrefixOf_iff_prefix.mp opens)
    have later : text.drop 20 = (text.drop 4).drop 16 := by rw [List.drop_drop]
    rw [later, List.append_assoc, List.take_append_drop]
    exact split.symm
  · rintro ⟨boundary, key, rest, rfl, length, inside, behind⟩
    have front : ("AKIA".toList ++ key ++ rest).drop 4 = key ++ rest := by
      rw [List.append_assoc]
      exact List.drop_left' (by simp)
    have twenty : ("AKIA".toList ++ key ++ rest).drop 20 = rest :=
      List.drop_left' (by simp [length])
    have taken : (key ++ rest).take 16 = key := List.take_left' length
    rw [front, twenty, taken]
    refine ⟨⟨⟨⟨boundary, ?_⟩, length⟩, inside⟩, behind⟩
    rw [List.append_assoc]
    simp

theorem isKeyChar_solid {c : Char} (inside : isKeyChar c = true) : isSpace c = false := by
  rw [← Bool.not_eq_true]
  intro blank
  have letter : c.isAlphanum = true := by
    simp only [isKeyChar, Bool.or_eq_true] at inside
    rw [isAlphanum_iff]
    tauto
  have bounds := isAlphanum_range letter
  have range := isSpace_range blank
  omega

theorem akia_solid : Solid "AKIA".toList := by simp [Solid, isSpace]

theorem keyAt_flatten (spacing : Spacing u) (text : List Char) :
    KeyAt u (flatten text) ↔ KeyAt u text := by
  have solid : ∀ {key : List Char}, (∀ c ∈ key, isKeyChar c = true) →
      ∀ c ∈ "AKIA".toList ++ key, isSpace c = false := by
    intro key inside c mem
    rcases List.mem_append.mp mem with opening | body
    · exact akia_solid.2 c opening
    · exact isKeyChar_solid (inside c body)
  constructor
  · rintro ⟨key, rest, shape, length, inside, behind⟩
    have opens := isPrefixOf_flatten (solid inside) text
    rw [shape, List.isPrefixOf_iff_prefix.mpr (List.prefix_append _ _)] at opens
    obtain ⟨tail, rfl⟩ := List.isPrefixOf_iff_prefix.mp opens.symm
    rw [flatten_append (solid inside), List.append_cancel_left_eq] at shape
    refine ⟨key, tail, rfl, length, inside, ?_⟩
    rw [← atBoundary_flatten spacing.apart, shape, behind]
  · rintro ⟨key, rest, rfl, length, inside, behind⟩
    refine ⟨key, flatten rest, flatten_append (solid inside) rest, length, inside, ?_⟩
    rw [atBoundary_flatten spacing.apart, behind]

theorem blind_accessKey (spacing : Spacing u) : Blind u (accessKey u) where
  before same text := by
    rw [Bool.eq_iff_iff, accessKey_iff, accessKey_iff, atBoundary_before same]
  nil b := by simp [accessKey]
  blank b c blank rest := by
    rw [← Bool.not_eq_true, accessKey_iff]
    rintro ⟨-, key, tail, shape, -⟩
    have opens := akia_solid.not_blank blank rest
    rw [shape, List.append_assoc, List.isPrefixOf_iff_prefix.mpr (List.prefix_append _ _)] at opens
    cases opens
  flat b text := by
    rw [Bool.eq_iff_iff, accessKey_iff, accessKey_iff, atBoundary_flatten spacing.apart,
      keyAt_flatten spacing]
  more b text found rest := by
    rw [accessKey_iff] at found ⊢
    obtain ⟨boundary, key, tail, rfl, length, inside, behind⟩ := found
    refine ⟨by rw [atBoundary_more spacing.apart, boundary], key, tail ++ ' ' :: rest, by simp,
      length, inside, ?_⟩
    rw [atBoundary_more spacing.apart, behind]

/-- One of the three patterns matches: a token, an assignment or an access key. -/
def spelt (u : Unicode) (text : List Char) : Bool :=
  search (apiToken u) none text || search (assignedSecret u) none text ||
    search (accessKey u) none text

/-- A private key begins in the text. -/
def opensKey (text : List Char) : Bool := search (fun _ => privateKey) none text

theorem containsSecret_iff (text : List Char) :
    containsSecret u text = true ↔ spelt u text = true ∨ opensKey text = true := by
  simp only [containsSecret, spelt, opensKey, Bool.or_eq_true]
  tauto

theorem spelt_words (spacing : Spacing u) {x y : List Char} (same : words x = words y) :
    spelt u x = spelt u y := by
  rw [spelt, spelt, search_words spacing.apart (blind_apiToken spacing) same,
    search_words spacing.apart (blind_assignedSecret spacing) same,
    search_words spacing.apart (blind_accessKey spacing) same]

theorem spelt_part (spacing : Spacing u) {x y : List Char} (inside : words x <:+: words y)
    (found : spelt u x = true) : spelt u y = true := by
  simp only [spelt, Bool.or_eq_true] at found ⊢
  rcases found with (token | assigned) | key
  · exact .inl (.inl (search_part spacing.apart (blind_apiToken spacing) inside token))
  · exact .inl (.inr (search_part spacing.apart (blind_assignedSecret spacing) inside assigned))
  · exact .inr (search_part spacing.apart (blind_accessKey spacing) inside key)

/-! ## Words of a normalized text -/

theorem words_under (lines : List (List Char)) : words (under '\n' lines) = lines.flatMap words := by
  induction lines with
  | nil => rfl
  | cons line lines ih =>
      rw [under_cons, words_blank (by decide), List.flatMap_cons]
      cases lines with
      | nil => simp
      | cons next lines =>
          rw [under_cons, words_append_blank (by decide)]
          rw [under_cons, words_blank (by decide)] at ih
          rw [ih]

theorem words_append_under (front : List Char) (lines : List (List Char)) :
    words (front ++ under '\n' lines) = words front ++ lines.flatMap words := by
  cases lines with
  | nil => simp
  | cons line lines =>
      have rest := words_under (line :: lines)
      rw [under_cons, words_blank (by decide)] at rest
      rw [under_cons, words_append_blank (by decide), rest]

theorem words_join (lines : List (List Char)) : words (join '\n' lines) = lines.flatMap words := by
  cases lines with
  | nil => rfl
  | cons line lines => rw [join_cons, words_append_under, List.flatMap_cons]

theorem words_splitOn (text : List Char) : (splitOn '\n' text).flatMap words = words text := by
  rw [← words_join, join_splitOn]

theorem isGap_blank {c : Char} (gap : isGap c = true) : isSpace c = true := by
  simp only [isGap, Bool.or_eq_true, beq_iff_eq] at gap
  rcases gap with (rfl | rfl) | value
  · decide
  · decide
  · simp [isSpace, value]

theorem squeeze_head : ∀ line : List Char,
    ((squeeze line).head?.map isSpace).getD true = (line.head?.map isSpace).getD true
  | [] => rfl
  | c :: rest => by
      rw [squeeze]
      by_cases gap : isGap c = true
      · rw [if_pos gap]
        split
        · rename_i next
          rw [squeeze_head rest]
          cases rest with
          | nil => cases next
          | cons d rest =>
              have second := isGap_blank (by simpa using next)
              simp [isGap_blank gap, second]
        · simp [isGap_blank gap, show isSpace ' ' = true by decide]
      · rw [if_neg gap]
        rfl

theorem words_squeeze : ∀ line : List Char, words (squeeze line) = words line
  | [] => rfl
  | c :: rest => by
      have ih := words_squeeze rest
      have next := squeeze_head rest
      rw [squeeze]
      by_cases gap : isGap c = true
      · rw [if_pos gap, words_blank (isGap_blank gap)]
        split
        · exact ih
        · rw [words_blank (by decide), ih]
      · rw [if_neg gap, words, words, next, ih]

theorem words_tidy (line : List Char) : words (tidy line) = words line := by
  rw [tidy, words_strip, words_squeeze]

theorem words_tidied (lines : List (List Char)) :
    (lines.map tidy).flatMap words = lines.flatMap words := by
  rw [List.flatMap_map]
  exact List.flatMap_congr fun line _ => words_tidy line

theorem words_normalize (text : List Char) : words (normalize u text) = words (plainLines u text) := by
  rw [normalize, words_join, words_tidied, words_splitOn]

/-! ## The text behind a header -/

/-- What stands behind the header of a text, its lines not yet tidied. -/
def behindHeader (lines : List (List Char)) : List Char :=
  match (lines.drop 2).dropWhile fun l => !RULE.isPrefixOf (tidy l) with
  | [] => []
  | l :: after => (tidy l).drop RULE.length ++ under '\n' after

/-- The lines behind a header, the first one without its rule. -/
def linesBehind (lines : List (List Char)) : List (List Char) :=
  match (lines.drop 2).dropWhile fun l => !RULE.isPrefixOf l with
  | [] => []
  | l :: after => l.drop RULE.length :: after

theorem words_behindHeader (lines : List (List Char)) :
    words (behindHeader lines) = (linesBehind (lines.map tidy)).flatMap words := by
  unfold behindHeader linesBehind
  rw [← List.map_drop, List.dropWhile_map]
  change _ = (match ((lines.drop 2).dropWhile fun l => !RULE.isPrefixOf (tidy l)).map tidy with
    | [] => []
    | l :: after => l.drop RULE.length :: after).flatMap words
  cases (lines.drop 2).dropWhile fun l => !RULE.isPrefixOf (tidy l) with
  | nil => rfl
  | cons l after =>
      simp only [List.map_cons, List.flatMap_cons]
      rw [words_append_under, words_tidied]

/-- A header begins with a rule, and a line follows it. -/
theorem normalLines_of_header {text header body : List Char}
    (found : headerOf (normalize u text) = some (header, body)) :
    ∃ second others, normalLines u text = RULE :: second :: others := by
  have opens := headerOf_shape found
  obtain ⟨first, others, shape⟩ := @splitOn_cases '\n' (plainLines u text)
  have lines : normalLines u text = tidy first :: others.map tidy := by
    rw [normalLines, shape, List.map_cons]
  have first_free : '\n' ∉ tidy first := by
    have mem : tidy first ∈ (splitOn '\n' (plainLines u text)).map tidy := by
      rw [shape]
      exact List.mem_cons_self
    exact feed_not_mem_lines mem
  rw [normalize_eq, lines, join_cons] at opens
  cases others with
  | nil =>
      rw [List.map_nil, under_nil, List.append_nil] at opens
      exact absurd (opens ▸ by simp) first_free
  | cons second rest =>
      rw [List.map_cons, under_cons] at opens
      rcases mark_cases opens with ⟨same, -⟩ | ⟨z, long, -⟩ | ⟨z, long, -⟩
      · exact ⟨tidy second, rest.map tidy, by rw [lines, same, List.map_cons]⟩
      · have inside : '\n' ∈ RULE := by rw [long]; simp
        exact absurd inside (by decide)
      · exact absurd (long ▸ by simp) first_free

/-- **The lines of the body** are those behind the header. -/
theorem body_lines {text header body : List Char}
    (found : headerOf (normalize u text) = some (header, body)) :
    splitOn '\n' body = linesBehind (normalLines u text) := by
  obtain ⟨second, others, lines⟩ := normalLines_of_header found
  have free : ∀ l ∈ normalLines u text, '\n' ∉ l := fun l mem => feed_not_mem_lines mem
  rw [lines] at free
  have frees : ∀ l ∈ others, '\n' ∉ l := fun l mem => free l (by simp [mem])
  rw [normalize_eq, lines, join_cons, headerOf_lines (free second (by simp)) frees] at found
  rw [lines, linesBehind, List.drop_succ_cons, List.drop_succ_cons, List.drop_zero]
  cases rest : others.dropWhile fun l => !RULE.isPrefixOf l with
  | nil =>
      rw [rest] at found
      cases found
  | cons l after =>
      rw [rest] at found
      obtain ⟨-, rfl⟩ := Prod.mk.inj (Option.some.inj found)
      have mem : ∀ k ∈ l :: after, k ∈ others := fun k there =>
        (List.dropWhile_sublist _).subset (rest ▸ there)
      have first_free : '\n' ∉ l.drop RULE.length := fun inside =>
        frees l (mem l List.mem_cons_self) (List.mem_of_mem_drop inside)
      dsimp only
      rw [← join_cons, splitOn_join (List.cons_ne_nil _ _)]
      intro k there
      rcases List.mem_cons.mp there with rfl | later
      · exact first_free
      · exact frees k (mem k (List.mem_cons_of_mem l later))

theorem words_body {text header body : List Char}
    (found : headerOf (normalize u text) = some (header, body)) :
    words body = words (behindHeader (splitOn '\n' (plainLines u text))) := by
  rw [words_behindHeader, ← words_splitOn body, body_lines found, normalLines]

/-! ## What ingestion finds -/

variable {host : Host} {lib : Library} {files : Files} {e : Extracted} {doc : ParsedDocument}

theorem validated_title {members : Members} {m : DocumentMeta}
    (ok : validateMeta lib members = .ok m) : members.lookup "title" = some (.str m.title) := by
  unfold validateMeta at ok
  generalize made : both _ _ = parts at ok
  match parts, made, ok with
  | .ok ((documentId, title), (department, classification), updatedAt, source), made, ok =>
      cases ok
      obtain ⟨-, titled⟩ := both_ok.mp (both_ok.mp made).1
      obtain ⟨v, there, checked⟩ := field_ok titled
      rw [there, check_str checked]

theorem finish_ok (finished : finish lib files e = .ok doc) :
    e.members.lookup "title" = some (.str doc.metadata.title) ∧ doc.blocks = e.blocks := by
  unfold finish at finished
  cases validated : validateMeta lib e.members with
  | error errors => simp [validated] at finished
  | ok m =>
      simp only [validated] at finished
      split at finished
      · cases finished
        exact ⟨validated_title validated, rfl⟩
      · cases finished

/-- What a Markdown file is found to hold. -/
theorem extract_markdown (markdown : isMarkdown (files.suffix host) = true)
    (extracted : extract host u lib files = .ok e) : ∃ text header,
      String.fromUTF8? files.bytes = some text ∧
        headerOf (normalize u (newlines text.toList)) = some (header, e.raw) ∧
        (splitlines header).foldlM (metaLine host) [] = .ok e.members ∧
        e.blocks = blocksFromLines (lineTexts e.raw) := by
  unfold extract at extracted
  rw [if_pos markdown] at extracted
  obtain ⟨text, read, extracted⟩ := bind_ok.mp extracted
  obtain ⟨⟨members, body⟩, split, extracted⟩ := bind_ok.mp extracted
  cases extracted
  unfold readText at read
  cases decoded : String.fromUTF8? files.bytes with
  | none => simp [decoded] at read
  | some s =>
      simp only [decoded, Except.ok.injEq] at read
      subst read
      cases found : headerOf (normalize u (newlines s.toList)) with
      | none =>
          obtain ⟨message, missing⟩ := @splitFrontMatter_of_none host _ found
          cases missing.symm.trans split
      | some pair =>
          obtain ⟨header, body'⟩ := pair
          rw [splitFrontMatter_of_header found] at split
          cases told : (splitlines header).foldlM (metaLine host) [] with
          | error f =>
              rw [told] at split
              cases split
          | ok members' =>
              rw [told] at split
              cases split
              refine ⟨s, header, rfl, ?_⟩
              dsimp only
              exact ⟨found, told, rfl⟩

/-- What a text file and its sidecar are found to hold. -/
theorem extract_text (plain : files.suffix host = ".txt")
    (extracted : extract host u lib files = .ok e) : ∃ text,
      String.fromUTF8? files.bytes = some text ∧ e.raw = normalize u (newlines text.toList) ∧
        sidecar lib files.name files.sidecar = .ok e.members ∧
        e.blocks = blocksFromLines (lineTexts e.raw) := by
  have other : ¬isMarkdown (files.suffix host) = true := by rw [plain]; decide
  unfold extract at extracted
  rw [if_neg other, if_pos plain] at extracted
  obtain ⟨members, side, extracted⟩ := bind_ok.mp extracted
  obtain ⟨text, read, extracted⟩ := bind_ok.mp extracted
  cases extracted
  unfold readText at read
  cases decoded : String.fromUTF8? files.bytes with
  | none => simp [decoded] at read
  | some s =>
      simp only [decoded, Except.ok.injEq] at read
      subst read
      refine ⟨s, rfl, ?_⟩
      dsimp only
      exact ⟨rfl, side, rfl⟩

theorem block_words (text : List Char) {block : Block}
    (mem : block ∈ blocksFromLines (lineTexts text)) : words block.text.toList <:+: words text := by
  have quoted := block_quotes _ mem
  have lines : (lineTexts text).flatMap wordsIn = words text := by
    rw [← words_splitOn text, lineTexts, List.flatMap_map]
    exact List.flatMap_congr fun line _ => by rw [wordsIn, String.toList_ofList]
  rwa [lines] at quoted

end OpsAssist.Parsing
