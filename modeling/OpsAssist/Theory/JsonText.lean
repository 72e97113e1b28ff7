/-
# OpsAssist.Theory.JsonText -- compact JSON text, and that it determines the tree

`Json.text` writes a tree without blanks, strings in ASCII: a quote, a backslash
and the control characters with a letter escape, everything else outside the
printable ASCII range as one or two `\u` escapes (a surrogate pair above
`U+FFFF`).  It is generic in the text of a number; `NumberText` states what a
number text must satisfy so that `text_cut` holds: a tree can be cut off any text
that goes on with a delimiter.  In particular the text determines the tree
(`text_injective`).
-/
import OpsAssist.Theory.Json
import OpsAssist.Theory.Numeral

namespace OpsAssist.Theory.Json

set_option autoImplicit false

open Numeral

variable {ν : Type}

/-! ## Escapes -/

/-- The letter of a two-character escape. -/
def shortEscape (c : Char) : Option Char :=
  if c = '"' then some '"'
  else if c = '\\' then some '\\'
  else if c = '\n' then some 'n'
  else if c = '\r' then some 'r'
  else if c = '\t' then some 't'
  else if c = '\x0c' then some 'f'
  else if c = '\x08' then some 'b'
  else none

/-- The `\u` escapes of a character outside the printable range. -/
def unicodeEscape (n : Nat) : List Char :=
  if n < 65536 then '\\' :: 'u' :: hexQuad n
  else
    '\\' :: 'u' :: hexQuad (55296 + (n - 65536) / 1024) ++
      '\\' :: 'u' :: hexQuad (56320 + (n - 65536) % 1024)

/-- One character of a string in ASCII. -/
def escapeChar (c : Char) : List Char :=
  match shortEscape c with
  | some letter => ['\\', letter]
  | none =>
      if 32 ≤ c.toNat ∧ c.toNat ≤ 126 then [c]
      else unicodeEscape c.toNat

theorem shortEscape_injective {c d letter : Char} (left : shortEscape c = some letter)
    (right : shortEscape d = some letter) : c = d := by
  have inverse : ∀ {x : Char}, shortEscape x = some letter →
      x = (if letter = '"' then '"' else if letter = '\\' then '\\'
        else if letter = 'n' then '\n' else if letter = 'r' then '\r'
        else if letter = 't' then '\t' else if letter = 'f' then '\x0c' else '\x08') := by
    intro x there
    unfold shortEscape at there
    split_ifs at there <;> (cases there; simp_all)
  rw [inverse left, inverse right]

theorem shortEscape_ne_u {c : Char} : shortEscape c ≠ some 'u' := by
  unfold shortEscape
  split_ifs <;> simp

theorem shortEscape_backslash : shortEscape '\\' = some '\\' := by decide

theorem toNat_not_surrogate (c : Char) : c.toNat < 55296 ∨ 57344 ≤ c.toNat := by
  rcases c.valid with low | high
  · exact .inl low
  · exact .inr (Nat.succ_le_of_lt high.1)

theorem toNat_lt (c : Char) : c.toNat < 1114112 := by
  rcases c.valid with low | high
  · exact Nat.lt_trans low (by decide)
  · exact high.2

theorem hexQuad_append {m n : Nat} {s t : List Char} (hm : m < 65536) (hn : n < 65536)
    (same : hexQuad m ++ s = hexQuad n ++ t) : m = n ∧ s = t := by
  obtain ⟨heads, tails⟩ := List.append_inj same (by simp)
  exact ⟨hexQuad_injective hm hn heads, tails⟩

theorem unicodeEscape_append {c d : Char} {s t : List Char}
    (same : unicodeEscape c.toNat ++ s = unicodeEscape d.toNat ++ t) : c = d ∧ s = t := by
  have boundC := toNat_lt c
  have boundD := toNat_lt d
  have surrogateC := toNat_not_surrogate c
  have surrogateD := toNat_not_surrogate d
  unfold unicodeEscape at same
  split_ifs at same with hc hd hd <;>
    simp only [List.cons_append, List.append_assoc, List.cons.injEq, true_and] at same
  · obtain ⟨numbers, tails⟩ := hexQuad_append hc hd same
    exact ⟨Char.toNat_inj.mp numbers, tails⟩
  · obtain ⟨numbers, -⟩ := hexQuad_append hc (by omega) same
    omega
  · obtain ⟨numbers, -⟩ := hexQuad_append (by omega) hd same
    omega
  · obtain ⟨high, rest⟩ := hexQuad_append (by omega) (by omega) same
    simp only [List.cons.injEq, true_and] at rest
    obtain ⟨low, tails⟩ := hexQuad_append (by omega) (by omega) rest
    exact ⟨Char.toNat_inj.mp (by omega), tails⟩

/-- The three shapes of an escaped character. -/
theorem escapeChar_cases (c : Char) :
    (∃ letter, shortEscape c = some letter ∧ escapeChar c = ['\\', letter]) ∨
    (shortEscape c = none ∧ escapeChar c = [c]) ∨
    (shortEscape c = none ∧ escapeChar c = unicodeEscape c.toNat) := by
  unfold escapeChar
  cases short : shortEscape c with
  | some letter => exact .inl ⟨letter, rfl, rfl⟩
  | none =>
      simp only
      by_cases printable : 32 ≤ c.toNat ∧ c.toNat ≤ 126
      · exact .inr (.inl ⟨trivial, if_pos printable⟩)
      · exact .inr (.inr ⟨trivial, if_neg printable⟩)

theorem unicodeEscape_shape (n : Nat) :
    ∃ rest, unicodeEscape n = '\\' :: 'u' :: rest := by
  unfold unicodeEscape
  split_ifs
  · exact ⟨_, rfl⟩
  · exact ⟨_, rfl⟩

theorem escapeChar_prefixFree : PrefixFree escapeChar := by
  intro c d s t same
  rcases escapeChar_cases c with ⟨l, shortC, textC⟩ | ⟨shortC, textC⟩ | ⟨shortC, textC⟩ <;>
    rcases escapeChar_cases d with ⟨m, shortD, textD⟩ | ⟨shortD, textD⟩ | ⟨shortD, textD⟩ <;>
    rw [textC, textD] at same
  · simp only [List.cons_append, List.nil_append, List.cons.injEq, true_and] at same
    obtain ⟨rfl, tails⟩ := same
    exact ⟨shortEscape_injective shortC shortD, tails⟩
  · simp only [List.cons_append, List.nil_append, List.cons.injEq] at same
    rw [← same.1, shortEscape_backslash] at shortD
    cases shortD
  · obtain ⟨rest, shape⟩ := unicodeEscape_shape d.toNat
    simp only [shape, List.cons_append, List.nil_append, List.cons.injEq, true_and] at same
    exact absurd (same.1 ▸ shortC) shortEscape_ne_u
  · simp only [List.cons_append, List.nil_append, List.cons.injEq] at same
    rw [same.1, shortEscape_backslash] at shortC
    cases shortC
  · simpa using same
  · obtain ⟨rest, shape⟩ := unicodeEscape_shape d.toNat
    simp only [shape, List.cons_append, List.nil_append, List.cons.injEq] at same
    rw [same.1, shortEscape_backslash] at shortC
    cases shortC
  · obtain ⟨rest, shape⟩ := unicodeEscape_shape c.toNat
    simp only [shape, List.cons_append, List.nil_append, List.cons.injEq, true_and] at same
    exact absurd (same.1 ▸ shortD) shortEscape_ne_u
  · obtain ⟨rest, shape⟩ := unicodeEscape_shape c.toNat
    simp only [shape, List.cons_append, List.nil_append, List.cons.injEq] at same
    rw [← same.1, shortEscape_backslash] at shortD
    cases shortD
  · exact unicodeEscape_append same

theorem escapeChar_opens (c : Char) : ∃ d ds, escapeChar c = d :: ds ∧ d ≠ '"' := by
  rcases escapeChar_cases c with ⟨l, -, text⟩ | ⟨short, text⟩ | ⟨-, text⟩
  · exact ⟨_, _, text, by decide⟩
  · refine ⟨_, _, text, ?_⟩
    rintro rfl
    revert short
    decide
  · obtain ⟨rest, shape⟩ := unicodeEscape_shape c.toNat
    exact ⟨_, _, text.trans shape, by decide⟩

/-- A string between quotes. -/
def quoted (s : String) : List Char := '"' :: (s.toList.flatMap escapeChar ++ ['"'])

theorem quoted_prefixFree : PrefixFree quoted := by
  intro a b s t same
  simp only [quoted, List.cons_append, List.append_assoc, List.nil_append, List.cons.injEq,
    true_and] at same
  obtain ⟨chars, tails⟩ := escapeChar_prefixFree.closed escapeChar_opens _ _ _ _ same
  exact ⟨String.toList_injective chars, tails⟩

/-! ## The text of a tree -/

section Text

variable (numText : ν → List Char)

mutual

/-- The compact text of a tree: separators without blanks. -/
def text : Json ν → List Char
  | .null => ['n', 'u', 'l', 'l']
  | .bool true => ['t', 'r', 'u', 'e']
  | .bool false => ['f', 'a', 'l', 's', 'e']
  | .num n => numText n
  | .str s => quoted s
  | .arr [] => ['[', ']']
  | .arr (item :: items) => '[' :: (text item ++ moreItems items)
  | .obj [] => ['{', '}']
  | .obj ((k, v) :: rest) => '{' :: (quoted k ++ ':' :: (text v ++ moreMembers rest))

def moreItems : List (Json ν) → List Char
  | [] => [']']
  | item :: items => ',' :: (text item ++ moreItems items)

def moreMembers : List (String × Json ν) → List Char
  | [] => ['}']
  | (k, v) :: rest => ',' :: (quoted k ++ ':' :: (text v ++ moreMembers rest))

end

end Text

/-- The characters of bare words: numbers, `null`, `true` and `false`. -/
def isWordChar (c : Char) : Bool := c.isAlphanum || c == '+' || c == '-' || c == '.'

/-- What the text of a number must satisfy for the text of a tree to determine it. -/
structure NumberText (numText : ν → List Char) : Prop where
  injective : ∀ m n, numText m = numText n → m = n
  word : ∀ n, ∀ c ∈ numText n, isWordChar c = true
  opens : ∀ n, ∃ c cs, numText n = c :: cs ∧ c.isLower = false

/-- A text that is at its end or goes on with a comma or a closing bracket. -/
abbrev Delimited (rest : List Char) : Prop := Stops isWordChar rest

section Cut

variable {numText : ν → List Char}

theorem delimited_moreItems (items : List (Json ν)) (s : List Char) :
    Delimited (moreItems numText items ++ s) := by
  cases items with
  | nil => simp only [moreItems, List.cons_append, Stops]; decide
  | cons item items => simp only [moreItems, List.cons_append, Stops]; decide

theorem delimited_moreMembers (members : List (String × Json ν)) (s : List Char) :
    Delimited (moreMembers numText members ++ s) := by
  cases members with
  | nil => simp only [moreMembers, List.cons_append, Stops]; decide
  | cons member rest => simp only [moreMembers, List.cons_append, Stops]; decide

/-- Whether the text of the tree is a bare word. -/
def isWord : Json ν → Bool
  | .null | .bool _ | .num _ => true
  | .str _ | .arr _ | .obj _ => false

theorem word_text (good : NumberText numText) : ∀ {a : Json ν}, isWord a = true →
    (∀ c ∈ text numText a, isWordChar c = true) ∧ ∃ c cs, text numText a = c :: cs
  | .null, _ => by simp only [text]; exact ⟨List.all_eq_true.mp (by decide), _, _, rfl⟩
  | .bool true, _ => by simp only [text]; exact ⟨List.all_eq_true.mp (by decide), _, _, rfl⟩
  | .bool false, _ => by simp only [text]; exact ⟨List.all_eq_true.mp (by decide), _, _, rfl⟩
  | .num n, _ => by
      obtain ⟨c, cs, shape, -⟩ := good.opens n
      simp only [text]
      exact ⟨good.word n, c, cs, shape⟩

theorem bracket_text : ∀ {a : Json ν}, isWord a = false →
    ∃ c cs, text numText a = c :: cs ∧ isWordChar c = false
  | .str _, _ => by simp only [text]; exact ⟨_, _, rfl, by decide⟩
  | .arr [], _ => by simp only [text]; exact ⟨_, _, rfl, by decide⟩
  | .arr (_ :: _), _ => by simp only [text]; exact ⟨_, _, rfl, by decide⟩
  | .obj [], _ => by simp only [text]; exact ⟨_, _, rfl, by decide⟩
  | .obj ((_, _) :: _), _ => by simp only [text]; exact ⟨_, _, rfl, by decide⟩

/-- No tree's text begins with a character that neither belongs to a word nor opens
a string, an array or an object. -/
theorem text_ne_close (good : NumberText numText) (a : Json ν) {c : Char} (s t : List Char)
    (noWord : isWordChar c = false) (noOpen : c ∉ ['"', '[', '\x7b']) :
    text numText a ++ s ≠ c :: t := by
  simp only [List.mem_cons, List.not_mem_nil, or_false, not_or] at noOpen
  obtain ⟨notQuote, notBracket, notBrace⟩ := noOpen
  cases word : isWord a with
  | true =>
      obtain ⟨inside, d, ds, shape⟩ := word_text good word
      intro same
      have member := inside d (by rw [shape]; simp)
      rw [shape] at same
      rw [(List.cons.inj same).1, noWord] at member
      cases member
  | false =>
      intro same
      match a, word with
      | .str _, _ =>
          simp only [text, quoted, List.cons_append, List.cons.injEq] at same
          exact notQuote same.1.symm
      | .arr [], _ | .arr (_ :: _), _ =>
          simp only [text, List.cons_append, List.cons.injEq] at same
          exact notBracket same.1.symm
      | .obj [], _ | .obj ((_, _) :: _), _ =>
          simp only [text, List.cons_append, List.cons.injEq] at same
          exact notBrace same.1.symm

theorem text_ne_of_word (good : NumberText numText) {a b : Json ν} {s t : List Char}
    (word : isWord a = true) (bracket : isWord b = false) :
    text numText a ++ s ≠ text numText b ++ t := by
  obtain ⟨inside, c, cs, shape⟩ := word_text good word
  obtain ⟨d, ds, (shape' : text numText b = _), outside⟩ := bracket_text bracket
  intro same
  rw [shape, shape'] at same
  simp only [List.cons_append, List.cons.injEq] at same
  have member := inside c (by rw [shape]; simp)
  rw [same.1, outside] at member
  cases member

theorem number_ne_letters (good : NumberText numText) (n : ν) {c : Char} {cs : List Char}
    (lower : c.isLower = true) : numText n ≠ c :: cs := by
  obtain ⟨d, ds, shape, notLower⟩ := good.opens n
  intro same
  rw [shape] at same
  rw [(List.cons.inj same).1, lower] at notLower
  cases notLower

theorem word_injective (good : NumberText numText) : ∀ {a b : Json ν}, isWord a = true →
    isWord b = true → text numText a = text numText b → a = b
  | .null, .null, _, _, _ => rfl
  | .bool true, .bool true, _, _, _ => rfl
  | .bool false, .bool false, _, _, _ => rfl
  | .null, .bool true, _, _, same | .null, .bool false, _, _, same
  | .bool true, .null, _, _, same | .bool false, .null, _, _, same
  | .bool true, .bool false, _, _, same | .bool false, .bool true, _, _, same => by
      simp [text] at same
  | .num m, .num n, _, _, same => by
      simp only [text] at same
      rw [good.injective m n same]
  | .num n, .null, _, _, same | .num n, .bool true, _, _, same
  | .num n, .bool false, _, _, same => by
      simp only [text] at same
      exact absurd same (number_ne_letters good n (by decide))
  | .null, .num n, _, _, same | .bool true, .num n, _, _, same
  | .bool false, .num n, _, _, same => by
      simp only [text] at same
      exact absurd same.symm (number_ne_letters good n (by decide))

theorem words_cut (good : NumberText numText) {a b : Json ν} {s t : List Char}
    (wordA : isWord a = true) (wordB : isWord b = true) (stopS : Delimited s)
    (stopT : Delimited t) (same : text numText a ++ s = text numText b ++ t) :
    a = b ∧ s = t := by
  obtain ⟨words, rests⟩ :=
    run_cut (word_text good wordA).1 (word_text good wordB).1 stopS stopT same
  exact ⟨word_injective good wordA wordB words, rests⟩

mutual

/-- **A tree can be cut off any text that goes on with a delimiter.** -/
theorem text_cut (good : NumberText numText) : ∀ (a b : Json ν) (s t : List Char),
    Delimited s → Delimited t → text numText a ++ s = text numText b ++ t → a = b ∧ s = t
  | .null, b, s, t, stopS, stopT, same => by
      cases word : isWord b with
      | true => exact words_cut good rfl word stopS stopT same
      | false => exact absurd same (text_ne_of_word good rfl word)
  | .bool _, b, s, t, stopS, stopT, same => by
      cases word : isWord b with
      | true => exact words_cut good rfl word stopS stopT same
      | false => exact absurd same (text_ne_of_word good rfl word)
  | .num _, b, s, t, stopS, stopT, same => by
      cases word : isWord b with
      | true => exact words_cut good rfl word stopS stopT same
      | false => exact absurd same (text_ne_of_word good rfl word)
  | .str x, b, s, t, _, _, same => by
      match b with
      | .null | .bool _ | .num _ => exact absurd same.symm (text_ne_of_word good rfl rfl)
      | .str y =>
          simp only [text] at same
          obtain ⟨rfl, rests⟩ := quoted_prefixFree x y s t same
          exact ⟨rfl, rests⟩
      | .arr [] | .arr (_ :: _) | .obj [] | .obj ((_, _) :: _) => simp [text, quoted] at same
  | .arr [], b, s, t, _, _, same => by
      match b with
      | .null | .bool _ | .num _ => exact absurd same.symm (text_ne_of_word good rfl rfl)
      | .str _ | .obj [] | .obj ((_, _) :: _) => simp [text, quoted] at same
      | .arr [] => simpa [text] using same
      | .arr (y :: ys) =>
          simp only [text, List.cons_append, List.nil_append, List.append_assoc,
            List.cons.injEq, true_and] at same
          exact absurd same.symm (text_ne_close good y _ _ (by decide) (by decide))
  | .arr (x :: xs), b, s, t, _, _, same => by
      match b with
      | .null | .bool _ | .num _ => exact absurd same.symm (text_ne_of_word good rfl rfl)
      | .str _ | .obj [] | .obj ((_, _) :: _) => simp [text, quoted] at same
      | .arr [] =>
          simp only [text, List.cons_append, List.nil_append, List.append_assoc,
            List.cons.injEq, true_and] at same
          exact absurd same (text_ne_close good x _ _ (by decide) (by decide))
      | .arr (y :: ys) =>
          simp only [text, List.cons_append, List.append_assoc, List.cons.injEq,
            true_and] at same
          obtain ⟨rfl, tails⟩ := text_cut good x y _ _ (delimited_moreItems xs s)
            (delimited_moreItems ys t) same
          obtain ⟨rfl, rests⟩ := moreItems_cut good xs ys s t tails
          exact ⟨rfl, rests⟩
  | .obj [], b, s, t, _, _, same => by
      match b with
      | .null | .bool _ | .num _ => exact absurd same.symm (text_ne_of_word good rfl rfl)
      | .str _ | .arr [] | .arr (_ :: _) => simp [text, quoted] at same
      | .obj [] => simpa [text] using same
      | .obj ((_, _) :: _) => simp [text, quoted] at same
  | .obj ((k, v) :: rest), b, s, t, _, _, same => by
      match b with
      | .null | .bool _ | .num _ => exact absurd same.symm (text_ne_of_word good rfl rfl)
      | .str _ | .arr [] | .arr (_ :: _) | .obj [] => simp [text, quoted] at same
      | .obj ((k', v') :: rest') =>
          simp only [text, List.cons_append, List.append_assoc, List.cons.injEq,
            true_and] at same
          obtain ⟨rfl, tails⟩ := quoted_prefixFree k k' _ _ same
          simp only [List.cons.injEq, true_and] at tails
          obtain ⟨rfl, more⟩ := text_cut good v v' _ _ (delimited_moreMembers rest s)
            (delimited_moreMembers rest' t) tails
          obtain ⟨rfl, rests⟩ := moreMembers_cut good rest rest' s t more
          exact ⟨rfl, rests⟩

theorem moreItems_cut (good : NumberText numText) : ∀ (xs ys : List (Json ν)) (s t : List Char),
    moreItems numText xs ++ s = moreItems numText ys ++ t → xs = ys ∧ s = t
  | [], [], _, _, same => by simpa [moreItems] using same
  | [], _ :: _, _, _, same => by simp [moreItems] at same
  | _ :: _, [], _, _, same => by simp [moreItems] at same
  | x :: xs, y :: ys, s, t, same => by
      simp only [moreItems, List.cons_append, List.append_assoc, List.cons.injEq,
        true_and] at same
      obtain ⟨rfl, tails⟩ := text_cut good x y _ _ (delimited_moreItems xs s)
        (delimited_moreItems ys t) same
      obtain ⟨rfl, rests⟩ := moreItems_cut good xs ys s t tails
      exact ⟨rfl, rests⟩

theorem moreMembers_cut (good : NumberText numText) :
    ∀ (xs ys : List (String × Json ν)) (s t : List Char),
      moreMembers numText xs ++ s = moreMembers numText ys ++ t → xs = ys ∧ s = t
  | [], [], _, _, same => by simpa [moreMembers] using same
  | [], (_, _) :: _, _, _, same => by simp [moreMembers] at same
  | (_, _) :: _, [], _, _, same => by simp [moreMembers] at same
  | (k, v) :: rest, (k', v') :: rest', s, t, same => by
      simp only [moreMembers, List.cons_append, List.append_assoc, List.cons.injEq,
        true_and] at same
      obtain ⟨rfl, tails⟩ := quoted_prefixFree k k' _ _ same
      simp only [List.cons.injEq, true_and] at tails
      obtain ⟨rfl, more⟩ := text_cut good v v' _ _ (delimited_moreMembers rest s)
        (delimited_moreMembers rest' t) tails
      obtain ⟨rfl, rests⟩ := moreMembers_cut good rest rest' s t more
      exact ⟨rfl, rests⟩

end

/-- **The text of a tree determines it.** -/
theorem text_injective (good : NumberText numText) {a b : Json ν}
    (same : text numText a = text numText b) : a = b :=
  (text_cut good a b [] [] trivial trivial (by rw [same])).1

end Cut

end OpsAssist.Theory.Json
