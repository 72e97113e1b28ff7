/-
# OpsAssist.Theory.Pattern -- backtracking regular expressions

`Pattern.run` lists the ways a pattern matches at a place in the order a backtracking
matcher tries them, with the groups each of them captured; the match is the first.
`Pattern.scan` cuts a text at its leftmost matches that do not overlap, which is what
searching, listing and rewriting all read.

`pieces_scan`: the pieces of a text put together are the text.  `scan_found` and
`scan_plain` are the two steps of a scan.  `repeats_enough`: a repetition is not cut
short by its bound.  `findAll_occurs`: every match found is one at its place in the text.
`findAll_runs`: the runs of a class are found whole.
-/
import Mathlib.Data.List.TakeWhile
import OpsAssist.Theory.Text

namespace OpsAssist.Theory

set_option autoImplicit false

/-! ## Digits -/

/-- The zeros of the scripts with decimal digits; each is followed by its one to nine. -/
def zeros : List Nat :=
  [0x30, 0x660, 0x6f0, 0x7c0, 0x966, 0x9e6, 0xa66, 0xae6, 0xb66, 0xbe6, 0xc66, 0xce6, 0xd66,
    0xde6, 0xe50, 0xed0, 0xf20, 0x1040, 0x1090, 0x17e0, 0x1810, 0x1946, 0x19d0, 0x1a80, 0x1a90,
    0x1b50, 0x1bb0, 0x1c40, 0x1c50, 0xa620, 0xa8d0, 0xa900, 0xa9d0, 0xa9f0, 0xaa50, 0xabf0,
    0xff10, 0x104a0, 0x10d30, 0x11066, 0x110f0, 0x11136, 0x111d0, 0x112f0, 0x11450, 0x114d0,
    0x11650, 0x116c0, 0x11730, 0x118e0, 0x11950, 0x11c50, 0x11d50, 0x11da0, 0x11f50, 0x16a60,
    0x16ac0, 0x16b50, 0x1d7ce, 0x1d7d8, 0x1d7e2, 0x1d7ec, 0x1d7f6, 0x1e140, 0x1e2f0, 0x1e4f0,
    0x1e950, 0x1fbf0]

/-- The value of a decimal digit of any script. -/
def decimal (c : Char) : Option Nat :=
  (zeros.find? fun base => base ≤ c.toNat && c.toNat < base + 10).map fun base => c.toNat - base

/-- `\d` -/
def isDecimal (c : Char) : Bool := (decimal c).isSome

/-- `int(text)` of a run of decimal digits. -/
def intOf (digits : List Char) : Nat :=
  digits.foldl (fun n c => 10 * n + (decimal c).getD 0) 0

/-- No digit is a blank. -/
theorem isSpace_of_isDecimal {c : Char} (digit : isDecimal c = true) :
    Text.isSpace c = false := by
  have table : ∀ base ∈ zeros, ∀ k < 10,
      ((9 ≤ base + k && base + k ≤ 13) || (28 ≤ base + k && base + k ≤ 32) || base + k == 0x85 ||
        base + k == 0xa0 || base + k == 0x1680 || (0x2000 ≤ base + k && base + k ≤ 0x200a) ||
        base + k == 0x2028 || base + k == 0x2029 || base + k == 0x202f || base + k == 0x205f ||
        base + k == 0x3000) = false := by
    decide +kernel
  rw [isDecimal, decimal, Option.isSome_map, List.find?_isSome] at digit
  obtain ⟨base, mem, within⟩ := digit
  simp only [Bool.and_eq_true, decide_eq_true_eq] at within
  have here := table base mem (c.toNat - base) (by omega)
  rw [Nat.add_sub_cancel' within.1] at here
  exact here

/-! ## Patterns -/

/-- Where a matcher stands: the character before, the text after, the captured groups. -/
structure Place where
  prior : Option Char := none
  rest : List Char
  groups : List (Nat × List Char) := []

inductive Pattern where
  | empty
  | set (accepts : Char → Bool)
  /-- a condition on the characters on either side -/
  | look (holds : Option Char → Option Char → Bool)
  | seq (first second : Pattern)
  | alt (first second : Pattern)
  /-- greedy, at least and at most so often -/
  | rep (least : Nat) (most : Option Nat) (body : Pattern)
  | group (number : Nat) (body : Pattern)
  /-- the text a group has captured, once more -/
  | again (number : Nat)

/-- What a pattern matched. -/
structure Match where
  text : List Char
  groups : List (Nat × List Char)

/-- `match.group(number)`, the empty text for a group that took no part. -/
def Match.group (m : Match) (number : Nat) : List Char := (m.groups.lookup number).getD []

/-- The place after a text, when the text stands there. -/
def Place.past (s : Place) : List Char → Option Place
  | [] => some s
  | c :: more =>
      match s.rest with
      | [] => none
      | d :: rest => if c = d then { s with prior := some d, rest }.past more else none

/-- What was read between two places. -/
def Place.read (s t : Place) : List Char := s.rest.take (s.rest.length - t.rest.length)

namespace Pattern

/-- Greedy repetition.  A round that reads nothing ends the loop. -/
def repeats (body : Place → List Place) : Nat → Nat → Option Nat → Place → List Place
  | 0, least, _, s => if least = 0 then [s] else []
  | bound + 1, least, most, s =>
      (if most = some 0 then []
        else ((body s).filter fun t => t.rest.length < s.rest.length).flatMap
          (repeats body bound (least - 1) (most.map (· - 1)))) ++
        if least = 0 then [s] else []

/-- The ways a pattern matches at a place, the preferred one first. -/
def run : Pattern → Place → List Place
  | empty, s => [s]
  | set accepts, s =>
      match s.rest with
      | [] => []
      | c :: rest => if accepts c then [{ s with prior := some c, rest }] else []
  | look holds, s => if holds s.prior s.rest.head? then [s] else []
  | seq first second, s => (first.run s).flatMap second.run
  | alt first second, s => first.run s ++ second.run s
  | rep least most body, s => repeats body.run s.rest.length least most s
  | group number body, s =>
      (body.run s).map fun t => { t with groups := (number, s.read t) :: t.groups }
  | again number, s => ((s.groups.lookup number).bind s.past).toList

/-- Every round reads a character, so as many rounds as there are characters are enough. -/
theorem repeats_enough (body : Place → List Place) : ∀ (bound : Nat) (extra least : Nat)
    (most : Option Nat) (s : Place), s.rest.length ≤ bound →
    repeats body (bound + extra) least most s = repeats body bound least most s
  | 0, 0, _, _, _, _ => rfl
  | 0, extra + 1, least, most, s, short => by
      have none_left : ((body s).filter fun t => t.rest.length < s.rest.length) = [] := by
        rw [List.filter_eq_nil_iff]
        intro t _
        simp only [decide_eq_true_eq]
        omega
      simp only [repeats, none_left, List.flatMap_nil, ite_self, List.nil_append]
  | bound + 1, extra, least, most, s, short => by
      rw [Nat.add_right_comm, repeats, repeats]
      congr 2
      refine List.flatMap_congr fun t mem => ?_
      have shorter := of_decide_eq_true (List.mem_filter.mp mem).2
      exact repeats_enough body bound extra _ _ t (by omega)

/-- One character. -/
def char (c : Char) : Pattern := set (· = c)

/-- A text, read as it stands. -/
def literal (text : String) : Pattern := text.toList.foldr (fun c more => seq (char c) more) empty

/-- One of several patterns, tried in order. -/
def oneOf (choices : List Pattern) : Pattern := choices.foldr alt (look fun _ _ => false)

/-- `*`, `+` and `?` -/
def star (body : Pattern) : Pattern := rep 0 none body
def plus (body : Pattern) : Pattern := rep 1 none body
def opt (body : Pattern) : Pattern := rep 0 (some 1) body

/-- One after the other. -/
def all (parts : List Pattern) : Pattern := parts.foldr seq empty

/-- `\b`, for the characters that make up words -/
def edge (word : Char → Bool) : Pattern :=
  look fun before after => before.any word != after.any word

/-- A letter when case does not count: its two forms, and the four characters outside
ASCII that fold to one. -/
def sameLetter (letter c : Char) : Bool :=
  c == letter || c == letter.toUpper || (letter == 's' && c == 'ſ') ||
    (letter == 'i' && (c == 'ı' || c == 'İ')) || (letter == 'k' && c.toNat == 0x212a)

/-- A lower-case word when case does not count. -/
def anyCase (word : String) : Pattern :=
  word.toList.foldr (fun c more => seq (set (sameLetter c)) more) empty

end Pattern

/-! ## Reading on -/

theorem Place.past_suffix : ∀ {text : List Char} {s t : Place}, s.past text = some t →
    t.rest <:+ s.rest
  | [], _, _, past => by
      cases past
      exact List.suffix_rfl
  | c :: more, s, t, past => by
      rw [Place.past] at past
      cases rest : s.rest with
      | nil =>
          rw [rest] at past
          cases past
      | cons d behind =>
          rw [rest] at past
          by_cases same : c = d
          · simp only [if_pos same] at past
            exact (Place.past_suffix past).trans (List.suffix_cons d behind)
          · simp only [if_neg same] at past
            cases past

namespace Pattern

/-- What holds at a place and at every place a round of a repetition comes to holds where
the repetition ends. -/
theorem repeats_keeps {body : Place → List Place} {holds : Place → Prop}
    (step : ∀ s, holds s → ∀ t ∈ body s, holds t) : ∀ (bound least : Nat) (most : Option Nat)
    (s : Place), holds s → ∀ t ∈ repeats body bound least most s, holds t
  | 0, least, most, s, here, t, mem => by
      rw [repeats] at mem
      by_cases enough : least = 0
      · rw [if_pos enough, List.mem_singleton] at mem
        rw [mem]
        exact here
      · rw [if_neg enough] at mem
        cases mem
  | bound + 1, least, most, s, here, t, mem => by
      rw [repeats, List.mem_append] at mem
      rcases mem with more | stop
      · by_cases full : most = some 0
        · rw [if_pos full] at more
          cases more
        · rw [if_neg full] at more
          obtain ⟨u, inBody, later⟩ := List.mem_flatMap.mp more
          exact repeats_keeps step bound _ _ u (step s here u (List.mem_filter.mp inBody).1) t later
      · by_cases enough : least = 0
        · rw [if_pos enough, List.mem_singleton] at stop
          rw [stop]
          exact here
        · rw [if_neg enough] at stop
          cases stop

theorem repeats_suffix {body : Place → List Place}
    (on : ∀ s, ∀ t ∈ body s, t.rest <:+ s.rest) (bound least : Nat) (most : Option Nat)
    (s : Place) : ∀ t ∈ repeats body bound least most s, t.rest <:+ s.rest :=
  @repeats_keeps body (fun u => u.rest <:+ s.rest)
    (fun u here t inBody => (on u t inBody).trans here) bound least most s List.suffix_rfl

/-- A matcher only reads on. -/
theorem run_suffix : ∀ (p : Pattern) (s : Place), ∀ t ∈ p.run s, t.rest <:+ s.rest
  | empty, s, t, mem => by
      rw [List.mem_singleton.mp mem]
  | set accepts, s, t, mem => by
      rw [run] at mem
      cases rest : s.rest with
      | nil =>
          rw [rest] at mem
          cases mem
      | cons c behind =>
          rw [rest] at mem
          by_cases fits : accepts c = true
          · simp only [if_pos fits, List.mem_singleton] at mem
            rw [mem]
            exact List.suffix_cons c behind
          · simp only [if_neg fits] at mem
            cases mem
  | look holds, s, t, mem => by
      rw [run] at mem
      by_cases here : holds s.prior s.rest.head? = true
      · rw [if_pos here, List.mem_singleton] at mem
        rw [mem]
      · rw [if_neg here] at mem
        cases mem
  | seq first second, s, t, mem => by
      obtain ⟨u, front, back⟩ := List.mem_flatMap.mp mem
      exact (run_suffix second u t back).trans (run_suffix first s u front)
  | alt first second, s, t, mem => by
      rcases List.mem_append.mp mem with one | other
      · exact run_suffix first s t one
      · exact run_suffix second s t other
  | rep least most body, s, t, mem => repeats_suffix (run_suffix body) _ least most s t mem
  | group number body, s, t, mem => by
      obtain ⟨u, inside, rfl⟩ := List.mem_map.mp mem
      exact run_suffix body s u inside
  | again number, s, t, mem => by
      obtain ⟨text, _, past⟩ := Option.bind_eq_some_iff.mp (Option.mem_toList.mp mem)
      exact Place.past_suffix past

end Pattern

/-- What was read, and what is left. -/
theorem Place.read_append {s t : Place} (on : t.rest <:+ s.rest) : s.read t ++ t.rest = s.rest := by
  obtain ⟨front, shape⟩ := on
  rw [Place.read, ← shape, List.length_append, Nat.add_sub_cancel, List.take_left]

/-! ## Scanning -/

/-- A part of a text: a match, or a character no match covers. -/
inductive Piece where
  | plain (c : Char)
  | found (m : Match)

def Piece.text : Piece → List Char
  | .plain c => [c]
  | .found m => m.text

namespace Pattern

/-- The preferred match at a place. -/
def matchAt (p : Pattern) (s : Place) : Option Match :=
  (p.run s).head?.map fun t => { text := s.read t, groups := t.groups }

/-- The pieces of a text, with the character before it and how much of it a match has
already taken.  For patterns that match no empty text. -/
def scan (p : Pattern) : Option Char → Nat → List Char → List Piece
  | _, _, [] => []
  | _, skip + 1, c :: rest => scan p (some c) skip rest
  | prior, 0, c :: rest =>
      match (p.matchAt { prior, rest := c :: rest }).filter fun m => m.text ≠ [] with
      | some m => .found m :: scan p (some c) (m.text.length - 1) rest
      | none => .plain c :: scan p (some c) 0 rest

def pieces (p : Pattern) (text : List Char) : List Piece := p.scan none 0 text

/-- `pattern.finditer(text)` -/
def findAll (p : Pattern) (text : List Char) : List Match :=
  (p.pieces text).filterMap fun
    | .found m => some m
    | .plain _ => none

/-- `pattern.search(text)` -/
def search (p : Pattern) (text : List Char) : Option Match := (p.findAll text).head?

/-- `pattern.sub(rewrite, text)` -/
def sub (p : Pattern) (rewrite : Match → List Char) (text : List Char) : List Char :=
  (p.pieces text).flatMap fun
    | .found m => rewrite m
    | .plain c => [c]

/-- What stands between the matches. -/
def between : List Piece → List (List Char)
  | [] => [[]]
  | .found _ :: rest => [] :: between rest
  | .plain c :: rest =>
      match between rest with
      | word :: words => (c :: word) :: words
      | [] => [[c]]

/-- `pattern.split(text)`, for a pattern without groups. -/
def splits (p : Pattern) (text : List Char) : List (List Char) := between (p.pieces text)

theorem between_ne_nil : ∀ ps : List Piece, between ps ≠ []
  | [] => List.cons_ne_nil _ _
  | .found _ :: _ => List.cons_ne_nil _ _
  | .plain _ :: rest => by
      rw [between]
      split <;> exact List.cons_ne_nil _ _

theorem scan_plain {p : Pattern} {prior : Option Char} {c : Char} {rest : List Char}
    (missed : p.matchAt { prior, rest := c :: rest } = none) :
    p.scan prior 0 (c :: rest) = .plain c :: p.scan (some c) 0 rest := by
  rw [scan, missed]
  rfl

theorem scan_skip (p : Pattern) (rest : List Char) : ∀ (taken : List Char) (prior : Option Char),
    p.scan prior taken.length (taken ++ rest) = p.scan (taken.getLast?.or prior) 0 rest
  | [], prior => rfl
  | c :: taken, prior => by
      rw [List.cons_append, List.length_cons, scan, scan_skip p rest taken]
      congr 1
      cases taken with
      | nil => rfl
      | cons d more => rw [List.getLast?_cons_cons, List.getLast?_cons]; rfl

/-- A match is one piece, and the scan goes on behind it. -/
theorem scan_found {p : Pattern} {prior : Option Char} {c : Char} {taken rest : List Char}
    {m : Match} (matched : p.matchAt { prior, rest := c :: taken ++ rest } = some m)
    (whole : m.text = c :: taken) :
    p.scan prior 0 (c :: taken ++ rest) =
      .found m :: p.scan (taken.getLast?.or (some c)) 0 rest := by
  have kept : (some m).filter (fun m => m.text ≠ []) = some m := by
    rw [Option.filter_some, if_pos (by rw [whole]; exact decide_eq_true (List.cons_ne_nil _ _))]
  rw [List.cons_append] at matched ⊢
  rw [scan, matched, kept]
  simp only [whole, List.length_cons, Nat.add_sub_cancel, scan_skip]

/-- **The pieces of a text are the text.** -/
theorem pieces_scan (p : Pattern) : ∀ (text : List Char) (prior : Option Char) (skip : Nat),
    (p.scan prior skip text).flatMap Piece.text = text.drop skip
  | [], _, _ => by rw [scan, List.drop_nil]; rfl
  | c :: rest, prior, skip + 1 => by
      rw [scan, pieces_scan p rest, List.drop_succ_cons]
  | c :: rest, prior, 0 => by
      rw [scan]
      split
      · next m found =>
          obtain ⟨matched, nonempty⟩ := Option.filter_eq_some_iff.mp found
          obtain ⟨t, _, rfl⟩ := Option.map_eq_some_iff.mp matched
          rw [List.flatMap_cons, pieces_scan p rest, Piece.text]
          cases read : Place.read { prior, rest := c :: rest } t with
          | nil => exact absurd read (of_decide_eq_true nonempty)
          | cons d more =>
              rw [Place.read] at read
              rw [List.length_cons, Nat.add_sub_cancel, List.drop_zero]
              have cut := List.take_append_drop ((c :: rest).length - t.rest.length) (c :: rest)
              have size := congrArg List.length read
              simp only [List.length_take, List.length_cons] at size cut read
              have behind : (c :: rest).drop (more.length + 1) =
                  (c :: rest).drop (rest.length + 1 - t.rest.length) := by
                by_cases short : rest.length + 1 - t.rest.length ≤ rest.length + 1
                · congr 1
                  omega
                · omega
              rw [List.drop_succ_cons] at behind
              rw [behind, ← read, cut]
      · next =>
          rw [List.flatMap_cons, pieces_scan p rest, Piece.text, List.drop_zero, List.drop_zero,
            List.singleton_append]

/-- A match is the beginning of what stands at its place. -/
theorem matchAt_front {p : Pattern} {s : Place} {m : Match} (matched : p.matchAt s = some m) :
    ∃ after, s.rest = m.text ++ after := by
  obtain ⟨t, first, rfl⟩ := Option.map_eq_some_iff.mp matched
  exact ⟨t.rest, (Place.read_append (run_suffix p s t (List.mem_of_head? first))).symm⟩

/-- A match that has to read a character first begins with it. -/
theorem matchAt_seq_char {c : Char} {more : Pattern} {s : Place} {m : Match}
    (matched : (seq (char c) more).matchAt s = some m) : m.text.head? = some c := by
  obtain ⟨t, first, rfl⟩ := Option.map_eq_some_iff.mp matched
  obtain ⟨u, front, back⟩ := List.mem_flatMap.mp (List.mem_of_head? first)
  have on := (run_suffix more u t back).length_le
  rw [char, run] at front
  cases rest : s.rest with
  | nil =>
      rw [rest] at front
      cases front
  | cons d behind =>
      rw [rest] at front
      by_cases same : d = c
      · simp only [same, decide_true, if_true, List.mem_singleton] at front
        subst front
        have one : (d :: behind).length - t.rest.length = (behind.length - t.rest.length) + 1 := by
          simp only [List.length_cons] at on ⊢
          omega
        rw [Place.read, rest, one, List.take_succ_cons, same]
        rfl
      · simp [same] at front

theorem getLast?_cons_or (c : Char) (more : List Char) (prior : Option Char) :
    (c :: more).getLast?.or prior = more.getLast?.or (some c) := by
  rw [List.getLast?_cons]
  cases more.getLast? <;> rfl

/-- Every match of a scan is a match at its place in the text. -/
theorem scan_occurs (p : Pattern) : ∀ (size : Nat) (text : List Char) (prior : Option Char),
    text.length ≤ size → ∀ m, .found m ∈ p.scan prior 0 text → ∃ before after,
      text = before ++ (m.text ++ after) ∧
      p.matchAt { prior := before.getLast?.or prior, rest := m.text ++ after } = some m
  | _, [], _, _, m, mem => by cases mem
  | size + 1, c :: rest, prior, short, m, mem => by
      have within : rest.length ≤ size := Nat.le_of_succ_le_succ short
      rw [scan] at mem
      split at mem
      · next here found =>
          obtain ⟨matched, nonempty⟩ := Option.filter_eq_some_iff.mp found
          obtain ⟨after, shape⟩ := matchAt_front matched
          rcases List.mem_cons.mp mem with same | later
          · cases same
            refine ⟨[], after, shape, ?_⟩
            rw [← shape]
            exact matched
          · -- the match begins with this character; the scan goes on behind it
            cases text : here.text with
            | nil => exact absurd text (of_decide_eq_true nonempty)
            | cons d more =>
                rw [text] at shape later
                obtain ⟨rfl, same⟩ := List.cons.inj shape
                have behind : rest = more ++ after := same
                rw [List.length_cons, Nat.add_sub_cancel, behind, scan_skip] at later
                have less : after.length ≤ size := by
                  rw [behind, List.length_append] at within
                  omega
                obtain ⟨before, tail, split, place⟩ := scan_occurs p size after _ less m later
                refine ⟨c :: more ++ before, tail, ?_, ?_⟩
                · rw [behind, split]
                  simp
                · rw [List.getLast?_append, Option.or_assoc, getLast?_cons_or]
                  exact place
      · next =>
          rcases List.mem_cons.mp mem with same | later
          · cases same
          · obtain ⟨before, after, shape, matched⟩ := scan_occurs p size rest (some c) within m later
            refine ⟨c :: before, after, by rw [shape]; rfl, ?_⟩
            rw [getLast?_cons_or]
            exact matched

/-- **Every match found is a match at its place in the text.** -/
theorem findAll_occurs {p : Pattern} {text : List Char} {m : Match} (mem : m ∈ p.findAll text) :
    ∃ before after, text = before ++ (m.text ++ after) ∧
      p.matchAt { prior := before.getLast?, rest := m.text ++ after } = some m := by
  obtain ⟨piece, inPieces, found⟩ := List.mem_filterMap.mp mem
  cases piece with
  | plain c => cases found
  | found m' =>
      cases found
      obtain ⟨before, after, shape, matched⟩ :=
        scan_occurs p text.length text none (Nat.le_refl _) m inPieces
      rw [Option.or_none] at matched
      exact ⟨before, after, shape, matched⟩

/-! ## Runs of a class -/

theorem run_set_cons (accepts : Char → Bool) (prior : Option Char) (c : Char) (rest : List Char)
    (groups : List (Nat × List Char)) :
    (set accepts).run { prior, rest := c :: rest, groups } =
      if accepts c then [{ prior := some c, rest, groups }] else [] := rfl

/-- A greedy repetition of a class prefers the whole run. -/
theorem head?_repeats_set (accepts : Char → Bool) (groups : List (Nat × List Char)) :
    ∀ (bound : Nat) (prior : Option Char) (text : List Char), text.length ≤ bound → ∃ last,
      (repeats (set accepts).run bound 0 none { prior, rest := text, groups }).head? =
        some { prior := last, rest := text.dropWhile accepts, groups }
  | 0, prior, text, short => by
      cases text with
      | nil => exact ⟨prior, rfl⟩
      | cons c rest => exact absurd short (by simp)
  | bound + 1, prior, [], short => ⟨prior, by simp [repeats, run]⟩
  | bound + 1, prior, c :: rest, short => by
      by_cases fits : accepts c = true
      · obtain ⟨last, whole⟩ := head?_repeats_set accepts groups bound (some c) rest
          (Nat.le_of_succ_le_succ short)
        refine ⟨last, ?_⟩
        simp [repeats, run_set_cons, fits, whole]
      · refine ⟨prior, ?_⟩
        simp [repeats, run_set_cons, fits]

/-- `[class]+` takes the whole run of the class, if there is one. -/
theorem matchAt_plus_set (accepts : Char → Bool) (prior : Option Char) (text : List Char) :
    (plus (set accepts)).matchAt { prior, rest := text } =
      if text.takeWhile accepts = [] then none
      else some { text := text.takeWhile accepts, groups := [] } := by
  rw [matchAt, plus, run]
  cases text with
  | nil => rfl
  | cons c rest =>
      by_cases fits : accepts c = true
      · obtain ⟨last, whole⟩ := head?_repeats_set accepts [] rest.length (some c) rest
          (Nat.le_refl _)
        have split := List.takeWhile_append_dropWhile (p := accepts) (l := rest)
        have size := congrArg List.length split
        rw [List.length_append] at size
        have taken : (rest.length + 1 - (rest.dropWhile accepts).length) =
            (rest.takeWhile accepts).length + 1 := by omega
        have read : rest.take (rest.takeWhile accepts).length = rest.takeWhile accepts := by
          have front := @List.take_left _ (rest.takeWhile accepts) (rest.dropWhile accepts)
          rwa [split] at front
        simp [repeats, run_set_cons, fits, whole, Place.read, taken, read]
      · simp [repeats, run_set_cons, fits]

/-- A word of a text for a class: it stands there whole, with no character of the class on
either side. -/
def Whole (accepts : Char → Bool) (word text : List Char) : Prop :=
  ∃ before after, text = before ++ (word ++ after) ∧ (∀ c ∈ word, accepts c = true) ∧
    before.getLast?.any accepts = false ∧ after.head?.any accepts = false

theorem scan_runs (accepts : Char → Bool) : ∀ (size : Nat) (text : List Char)
    (prior : Option Char), text.length ≤ size →
    (prior.any accepts = true → text.head?.any accepts = false) →
    ∀ m, .found m ∈ (plus (set accepts)).scan prior 0 text → ∃ before after,
      text = before ++ (m.text ++ after) ∧ (∀ c ∈ m.text, accepts c = true) ∧
      (before.getLast?.or prior).any accepts = false ∧ after.head?.any accepts = false
  | _, [], _, _, _, m, mem => by cases mem
  | size + 1, c :: rest, prior, short, apart, m, mem => by
      have within : rest.length ≤ size := Nat.le_of_succ_le_succ short
      have here := matchAt_plus_set accepts prior (c :: rest)
      by_cases fits : accepts c = true
      · have split := List.takeWhile_append_dropWhile (p := accepts) (l := rest)
        rw [List.takeWhile_cons_of_pos fits, if_neg (List.cons_ne_nil _ _)] at here
        have shape : c :: rest = c :: rest.takeWhile accepts ++ rest.dropWhile accepts := by
          rw [List.cons_append, split]
        have free : (rest.dropWhile accepts).head?.any accepts = false := by
          cases behind : rest.dropWhile accepts with
          | nil => rfl
          | cons d more =>
              have stops := List.head?_dropWhile_not accepts rest
              rw [behind] at stops
              simpa using stops
        rw [shape] at here mem
        rw [scan_found here rfl] at mem
        rcases List.mem_cons.mp mem with same | later
        · cases same
          refine ⟨[], rest.dropWhile accepts, shape, fun d inRun => ?_, ?_, free⟩
          · rcases List.mem_cons.mp inRun with rfl | inside
            · exact fits
            · exact List.mem_takeWhile_imp inside
          · rw [List.getLast?_nil, Option.none_or]
            by_contra letter
            have clash := apart (by simpa using letter)
            simp [fits] at clash
        · have less : (rest.dropWhile accepts).length ≤ size :=
            Nat.le_trans (List.length_dropWhile_le _ _) within
          obtain ⟨before, after, tail, all, left, right⟩ :=
            scan_runs accepts size _ _ less (fun _ => free) m later
          refine ⟨c :: rest.takeWhile accepts ++ before, after, ?_, all, ?_, right⟩
          · rw [shape, tail]
            simp
          · rw [List.getLast?_append, Option.or_assoc, getLast?_cons_or]
            exact left
      · rw [List.takeWhile_cons_of_neg fits, if_pos rfl] at here
        rw [scan_plain here] at mem
        rcases List.mem_cons.mp mem with same | later
        · cases same
        · have plain : (some c).any accepts = true → rest.head?.any accepts = false :=
            fun letter => absurd letter fits
          obtain ⟨before, after, tail, all, left, right⟩ :=
            scan_runs accepts size rest (some c) within plain m later
          refine ⟨c :: before, after, by rw [tail]; rfl, all, ?_, right⟩
          rw [getLast?_cons_or]
          exact left

/-- **The runs of a class are found whole.** -/
theorem findAll_runs {accepts : Char → Bool} {text : List Char} {m : Match}
    (mem : m ∈ (plus (set accepts)).findAll text) : Whole accepts m.text text := by
  obtain ⟨piece, inPieces, found⟩ := List.mem_filterMap.mp mem
  cases piece with
  | plain c => cases found
  | found m' =>
      cases found
      obtain ⟨before, after, shape, all, left, right⟩ :=
        scan_runs accepts text.length text none (Nat.le_refl _) nofun m inPieces
      rw [Option.or_none] at left
      exact ⟨before, after, shape, all, left, right⟩

/-! ## What a way to match reads -/

theorem matchAt_mem {p : Pattern} {s : Place} {m : Match} (matched : p.matchAt s = some m) :
    ∃ t ∈ p.run s, m = { text := s.read t, groups := t.groups } := by
  obtain ⟨t, first, rfl⟩ := Option.map_eq_some_iff.mp matched
  exact ⟨t, List.mem_of_mem_head? first, rfl⟩

theorem mem_run_seq {first second : Pattern} {s t : Place} :
    t ∈ (seq first second).run s ↔ ∃ u ∈ first.run s, t ∈ second.run u := List.mem_flatMap

theorem mem_run_set {accepts : Char → Bool} {s t : Place} (mem : t ∈ (set accepts).run s) :
    ∃ c, s.rest = c :: t.rest ∧ accepts c = true ∧ t.groups = s.groups := by
  rw [run] at mem
  cases rest : s.rest with
  | nil =>
      rw [rest] at mem
      cases mem
  | cons c behind =>
      rw [rest] at mem
      by_cases fits : accepts c = true
      · simp only [if_pos fits, List.mem_singleton] at mem
        rw [mem]
        exact ⟨c, rfl, fits, rfl⟩
      · simp only [if_neg fits] at mem
        cases mem

theorem mem_repeats_set {accepts : Char → Bool} : ∀ {bound least : Nat} {most : Option Nat}
    {s t : Place}, t ∈ repeats (set accepts).run bound least most s →
      ∃ taken, s.rest = taken ++ t.rest ∧ (∀ c ∈ taken, accepts c = true) ∧
        least ≤ taken.length ∧ (∀ m, most = some m → taken.length ≤ m) ∧ t.groups = s.groups
  | 0, least, most, s, t, mem => by
      rw [repeats] at mem
      by_cases enough : least = 0
      · rw [if_pos enough, List.mem_singleton] at mem
        rw [mem]
        exact ⟨[], rfl, by simp, by simp [enough], by simp, rfl⟩
      · rw [if_neg enough] at mem
        cases mem
  | bound + 1, least, most, s, t, mem => by
      rw [repeats, List.mem_append] at mem
      rcases mem with more | stop
      · by_cases full : most = some 0
        · rw [if_pos full] at more
          cases more
        · rw [if_neg full] at more
          obtain ⟨u, inBody, later⟩ := List.mem_flatMap.mp more
          obtain ⟨c, shape, fits, same⟩ := mem_run_set (List.mem_filter.mp inBody).1
          obtain ⟨taken, shape', all, least_le, most_le, same'⟩ := mem_repeats_set later
          refine ⟨c :: taken, ?_, ?_, ?_, ?_, same'.trans same⟩
          · rw [shape, shape', List.cons_append]
          · exact List.forall_mem_cons.mpr ⟨fits, all⟩
          · rw [List.length_cons]
            omega
          · rintro m rfl
            have pred := most_le (m - 1) rfl
            have pos : m ≠ 0 := fun zero => full (congrArg some zero)
            rw [List.length_cons]
            omega
      · by_cases enough : least = 0
        · rw [if_pos enough, List.mem_singleton] at stop
          rw [stop]
          exact ⟨[], rfl, by simp, by simp [enough], by simp, rfl⟩
        · rw [if_neg enough] at stop
          cases stop

/-- A repetition of a class reads a run of it, as long as its bounds allow. -/
theorem mem_run_rep_set {accepts : Char → Bool} {least : Nat} {most : Option Nat} {s t : Place}
    (mem : t ∈ (rep least most (set accepts)).run s) :
    ∃ taken, s.rest = taken ++ t.rest ∧ (∀ c ∈ taken, accepts c = true) ∧
      least ≤ taken.length ∧ (∀ m, most = some m → taken.length ≤ m) ∧ t.groups = s.groups :=
  mem_repeats_set mem

/-- A group captures what its body reads. -/
theorem mem_run_group {number : Nat} {body : Pattern} {s t : Place}
    (mem : t ∈ (group number body).run s) :
    ∃ u ∈ body.run s, t.rest = u.rest ∧ ∀ taken, s.rest = taken ++ u.rest →
      t.groups = (number, taken) :: u.groups := by
  obtain ⟨u, inside, rfl⟩ := List.mem_map.mp mem
  refine ⟨u, inside, rfl, ?_⟩
  intro taken shape
  have read : s.read u = taken := by
    rw [Place.read, shape, List.length_append, Nat.add_sub_cancel, List.take_left]
  show (number, s.read u) :: u.groups = _
  rw [read]

theorem mem_run_look {holds : Option Char → Option Char → Bool} {s t : Place}
    (mem : t ∈ (look holds).run s) : t = s ∧ holds s.prior s.rest.head? = true := by
  rw [run] at mem
  by_cases here : holds s.prior s.rest.head? = true
  · rw [if_pos here, List.mem_singleton] at mem
    exact ⟨mem, here⟩
  · rw [if_neg here] at mem
    cases mem

end Pattern

end OpsAssist.Theory
