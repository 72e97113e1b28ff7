/-
# OpsAssist.Citations -- what an answer cites

`finalize` brings the ways a model cites to one form, recognises an abstention, credits
figures to the source that states them, drops the markers no source stands for and lists
the others.

`citations_exact_iff`: the citations of an answer that is not an abstention are exactly its
markers, in order of first occurrence, when and only when every marker that closes up where
others are dropped repeats a number or introduces the next one.
Pole: `marker_closes_up`.
-/
import Mathlib.Data.List.TakeWhile
import OpsAssist.Host
import OpsAssist.Rag
import OpsAssist.Theory.Pattern

namespace OpsAssist

set_option autoImplicit false

open Theory Theory.Pattern Theory.Text

/-! ## Patterns -/

def digit : Pattern := .set isDecimal
def space : Pattern := .set isSpace

/-- `\d{1,2}` -/
def upToTwoDigits : Pattern := .rep 1 (some 2) digit

/-- `\[(\d{1,2})\]` -/
def MARKER : Pattern := all [char '[', .group 1 upToTwoDigits, char ']']

def WIDE_MARKER : Pattern :=
  all [.set fun c => c == '【' || c == '［', .group 1 upToTwoDigits,
    .set fun c => c == '】' || c == '］']

/-- `\b(sources?) #?(\d{1,2})\b(?:\s*\[\2\])?`, in any case -/
def PROSE_MARKER (word : Char → Bool) : Pattern :=
  all [edge word, .group 1 (all [anyCase "source", opt (anyCase "s")]), char ' ',
    opt (char '#'), .group 2 upToTwoDigits, edge word,
    opt (all [star space, char '[', .again 2, char ']'])]

/-- `\b(?:couldn't|could not|can't|cannot|was unable to|am unable to|unable to)\s+find\b` -/
def OWN_WORDS_ABSTENTION (word : Char → Bool) : Pattern :=
  all [edge word,
    oneOf [literal "couldn't", literal "could not", literal "can't", literal "cannot",
      literal "was unable to", literal "am unable to", literal "unable to"],
    .plus space, literal "find", edge word]

/-- `(?<![\w.,])(\d{1,3}(?:,\d{3})+|\d+(?:\.\d+)?)(%?)` -/
def FIGURE (word : Char → Bool) : Pattern :=
  all [.look fun before _ => !(before.any fun c => word c || c == '.' || c == ','),
    .group 1 (.alt
      (all [.rep 1 (some 3) digit, .plus (all [char ',', .rep 3 (some 3) digit])])
      (all [.plus digit, opt (all [char '.', .plus digit])])),
    .group 2 (opt (char '%'))]

def NUMBER_WORDS : List String :=
  ["zero", "one", "two", "three", "four", "five", "six", "seven", "eight", "nine", "ten",
    "eleven", "twelve"]

/-- `\b(zero|one|…|twelve)\b`, in any case -/
def NUMBER_WORD (word : Char → Bool) : Pattern :=
  all [edge word, .group 1 (oneOf (NUMBER_WORDS.map anyCase)), edge word]

/-- `(?<=[.!?])\s+(?!\[)|\n+` -/
def SENTENCE_END : Pattern :=
  .alt
    (all [.look fun before _ => before.any fun c => c == '.' || c == '!' || c == '?',
      .plus space, .look fun _ after => after != some '['])
    (.plus (char '\n'))

/-- `(sources? \[(\d{1,2})\])(?:(?:,\s*(?:and\s+)?|\s+and\s+)(?:sources? )?\[\2\])+` -/
def REPEATED_SOURCE : Pattern :=
  let source := all [literal "source", opt (char 's'), char ' ']
  all [.group 1 (all [source, char '[', .group 2 upToTwoDigits, char ']']),
    .plus (all [
      .alt (all [char ',', star space, opt (all [literal "and", .plus space])])
        (all [.plus space, literal "and", .plus space]),
      opt source, char '[', .again 2, char ']'])]

/-- `(\[(\d{1,2})\])(?:\s*\[\2\])+` -/
def REPEATED_MARKER : Pattern :=
  all [.group 1 (all [char '[', .group 2 upToTwoDigits, char ']']),
    .plus (all [star space, char '[', .again 2, char ']'])]

/-! ## Answers -/

structure Citation where
  number : Nat
  docKey : String
  version : Nat
  title : String
  locator : String
  ref : String
  snippet : String
deriving DecidableEq

structure GroundedAnswer where
  text : String
  citations : List Citation
  abstained : Bool
  invalidCitations : Nat
  repointedCitations : Nat := 0
deriving DecidableEq

def GroundedAnswer.grounded (given : GroundedAnswer) : Bool :=
  given.abstained || !given.citations.isEmpty

/-- The numbers a text's markers carry. -/
def markerNumbers (text : List Char) : List Nat :=
  (MARKER.findAll text).map fun m => intOf (m.group 1)

/-- `f"[{number}]"` -/
def marker (number : Nat) : List Char := '[' :: (toString number).toList ++ [']']

variable (host : Host) (word : Char → Bool)

def isAbstention (text : List Char) : Bool :=
  let dots := fun (t : List Char) => (t.reverse.dropWhile (· == '.')).reverse
  let norm := dots (join ' ' (words (host.lower text)))
  if (dots (host.lower ABSTAIN.toList)).isPrefixOf norm then true
  else if (MARKER.search text).isSome then false
  else contains "couldn't find this in the approved".toList norm ||
    ((OWN_WORDS_ABSTENTION word).search norm).isSome

/-- Full-width brackets and prose references become markers. -/
def normalizeMarkers (answer : List Char) (sources : Nat) : List Char :=
  let answer := WIDE_MARKER.sub (fun m => '[' :: m.group 1 ++ [']']) answer
  (PROSE_MARKER word).sub (fun m =>
    let n := intOf (m.group 2)
    if 1 ≤ n ∧ n ≤ sources then m.group 1 ++ [' '] ++ marker n else m.text) answer

/-! ## Citation attribution -/

/-- A set of figures, without repetition. -/
abbrev Figures := List (List Char)

instance lawfulChars : LawfulBEq (List Char) := inferInstance

/-- Numbers stated in a text; markers are not figures.  A word that only folds to a
number's, which the table does not have, raises. -/
def figures (text : List Char) : Option Figures := do
  let parts ← ((NUMBER_WORD word).pieces (MARKER.sub (fun _ => [' ']) text)).mapM fun
    | .plain c => some [c]
    | .found m =>
        ((NUMBER_WORDS.map String.toList).idxOf? (host.lower (m.group 1))).map fun i =>
          (toString i).toList
  return (((FIGURE word).findAll parts.flatten).map fun m =>
    (m.group 1).filter (· ≠ ',') ++ m.group 2).eraseDups

/-- `have[n - 1]` -/
def heldBy (sources : List Figures) (n : Nat) : Figures := (sources[n - 1]?).getD []

/-- The source that has most of the missing figures, the first of them. -/
def bestSource (sources : List Figures) (missing : Figures) : Nat :=
  let has := fun k => ((heldBy sources k).filter (· ∈ missing)).length
  (List.range' 1 sources.length).foldl (fun best k => if has best < has k then k else best) 1

/-- The sources to credit, until nothing is missing.  Each of them takes at least one
figure away, so there are at most as many rounds as figures. -/
def replacementsFor (sources : List Figures) : Nat → Figures → List Nat
  | 0, _ => []
  | rounds + 1, missing =>
      let best := bestSource sources missing
      if missing = [] ∨ (heldBy sources best).filter (· ∈ missing) = [] then []
      else best :: replacementsFor sources rounds (missing.filter (· ∉ heldBy sources best))

/-- A text with something put behind its last marker; there may be none. -/
def behindLast (extra : List Char) : List Piece → Option (List Char)
  | [] => none
  | .plain c :: rest => (behindLast extra rest).map (c :: ·)
  | .found m :: rest =>
      some (m.text ++ (behindLast extra rest).getD (extra ++ rest.flatMap Piece.text))

def repointSentence (sentence : List Char) (sources : List Figures) :
    Option (List Char × Nat) := do
  let cited := (markerNumbers sentence).filter fun n => 1 ≤ n ∧ n ≤ sources.length
  let stated ← figures host word sentence
  if cited = [] ∨ stated = [] then return (sentence, 0)
  let missing := stated.filter fun f =>
    (∀ n ∈ cited, f ∉ heldBy sources n) ∧ ∃ h ∈ sources, f ∈ h
  if missing = [] then return (sentence, 0)
  let replacements := replacementsFor sources missing.length missing
  let dead := (cited.filter fun n => (heldBy sources n).filter (· ∈ stated) = []).eraseDups
  let sentence ← if dead = [] then some sentence
    else replacements.head?.map fun first =>
      MARKER.sub (fun m => if intOf (m.group 1) ∈ dead then marker first else m.text) sentence
  let added := replacements.filter fun k => !contains (marker k) sentence
  let sentence ← if added = [] then some sentence
    else behindLast (added.flatMap marker) (MARKER.pieces sentence)
  return (REPEATED_MARKER.sub (·.group 1) (REPEATED_SOURCE.sub (·.group 1) sentence),
    dead.length + added.length)

/-- The sentences of a text, each with the boundary behind it. -/
def sentences : List Piece → List (List Char × List Char)
  | [] => [([], [])]
  | .found m :: rest => ([], m.text) :: sentences rest
  | .plain c :: rest =>
      match sentences rest with
      | (sentence, boundary) :: more => (c :: sentence, boundary) :: more
      | [] => [([c], [])]

def repointCitations (answer : List Char) (chunks : List RetrievedChunk) :
    Option (List Char × Nat) := do
  let sources ← chunks.mapM fun c => figures host word c.context.toList
  let out ← (sentences (SENTENCE_END.pieces answer)).mapM fun (sentence, boundary) => do
    let (repointed, n) ← repointSentence host word sentence sources
    return (repointed ++ boundary, n)
  return (out.flatMap Prod.fst, (out.map Prod.snd).sum)

/-! ## Validation -/

/-- What `check` leaves of the pieces of an answer, the numbers it meets in order, and
how many markers it drops. -/
def check (sources : Nat) : List Piece → List Nat → List Char × List Nat × Nat
  | [], order => ([], order, 0)
  | .plain c :: rest, order =>
      let after := check sources rest order
      (c :: after.1, after.2)
  | .found m :: rest, order =>
      let n := intOf (m.group 1)
      if 1 ≤ n ∧ n ≤ sources then
        let after := check sources rest (if n ∈ order then order else order ++ [n])
        (m.text ++ after.1, after.2)
      else
        let after := check sources rest order
        (after.1, after.2.1, after.2.2 + 1)

def citation (number : Nat) (c : RetrievedChunk) : Citation where
  number := number
  docKey := c.docKey
  version := c.version
  title := c.title
  locator := c.locator
  ref := c.stableRef
  snippet := String.ofList (c.content.toList.take 300)

/-- Keep only citation markers that point at a provided source; build citation records in
order of first use. -/
def finalize (answer : String) (chunks : List RetrievedChunk) : Option GroundedAnswer :=
  let answer := normalizeMarkers word answer.toList chunks.length
  if isAbstention host word answer then
    some { text := ABSTAIN, citations := [], abstained := true,
           invalidCitations := (MARKER.findAll answer).length }
  else do
    let (answer, repointed) ← repointCitations host word answer chunks
    let (cleaned, order, invalid) := check chunks.length (MARKER.pieces answer) []
    return {
      text := String.ofList (strip cleaned)
      citations := order.filterMap fun n => (chunks[n - 1]?).map (citation n)
      abstained := false
      invalidCitations := invalid
      repointedCitations := repointed }

def abstention : GroundedAnswer :=
  { text := ABSTAIN, citations := [], abstained := true, invalidCitations := 0 }

/-! ## Markers -/

/-- The digits of the marker a text opens with, and the text behind it. -/
def markAt : List Char → Option (List Char × List Char)
  | c :: d :: e :: rest =>
      if c = '[' ∧ isDecimal d then
        if e = ']' then some ([d], rest)
        else if isDecimal e ∧ rest.head? = some ']' then some ([d, e], rest.tail)
        else none
      else none
  | _ => none

/-- One or two digits. -/
def Digits (ds : List Char) : Prop :=
  (ds.length = 1 ∨ ds.length = 2) ∧ ∀ d ∈ ds, isDecimal d = true

theorem closing_not_decimal : isDecimal ']' = false := by decide +kernel

theorem opening_not_decimal : isDecimal '[' = false := by decide +kernel

theorem markAt_of_ne {c : Char} (rest : List Char) (other : c ≠ '[') :
    markAt (c :: rest) = none := by
  rcases rest with _ | ⟨d, _ | ⟨e, rest⟩⟩
  · rfl
  · rfl
  · rw [markAt, if_neg fun both => other both.1]

theorem markAt_mark {ds : List Char} (digits : Digits ds) (rest : List Char) :
    markAt ('[' :: ds ++ ']' :: rest) = some (ds, rest) := by
  obtain ⟨one | two, each⟩ := digits
  · obtain ⟨d, rfl⟩ := List.length_eq_one_iff.mp one
    simp only [List.cons_append, List.nil_append, markAt, if_pos, true_and,
      each d List.mem_cons_self]
  · obtain ⟨d, e, rfl⟩ := List.length_eq_two.mp two
    have second := each e (List.mem_cons_of_mem _ List.mem_cons_self)
    have open_ : e ≠ ']' := fun same => by
      rw [same, closing_not_decimal] at second
      cases second
    simp only [List.cons_append, List.nil_append, markAt, if_pos, true_and,
      each d List.mem_cons_self, second, if_neg open_, List.head?_cons, List.tail_cons]

/-- A text opens with a marker when it opens with a bracket, one or two digits and a
bracket. -/
theorem markAt_eq_some {text ds rest : List Char} (mark : markAt text = some (ds, rest)) :
    Digits ds ∧ text = '[' :: ds ++ ']' :: rest := by
  rcases text with _ | ⟨c, _ | ⟨d, _ | ⟨e, more⟩⟩⟩
  · cases mark
  · cases mark
  · cases mark
  · rw [markAt] at mark
    by_cases opens : c = '[' ∧ isDecimal d = true
    · rw [if_pos opens] at mark
      obtain ⟨rfl, first⟩ := opens
      by_cases closes : e = ']'
      · rw [if_pos closes] at mark
        cases mark
        refine ⟨⟨.inl rfl, fun x mem => ?_⟩, by rw [closes]; rfl⟩
        rw [List.mem_singleton.mp mem]
        exact first
      · rw [if_neg closes] at mark
        by_cases second : isDecimal e = true ∧ more.head? = some ']'
        · rw [if_pos second] at mark
          cases mark
          refine ⟨⟨.inr rfl, fun x mem => ?_⟩, ?_⟩
          · rcases List.mem_pair.mp mem with rfl | rfl
            · exact first
            · exact second.1
          · cases more with
            | nil => cases second.2
            | cons f more => rw [Option.some.inj second.2]; rfl
        · rw [if_neg second] at mark
          cases mark
    · rw [if_neg opens] at mark
      cases mark

/-- The match a marker is. -/
def markMatch (ds : List Char) : Match :=
  { text := '[' :: ds ++ [']'], groups := [(1, ds)] }

@[simp] theorem group_markMatch (ds : List Char) : (markMatch ds).group 1 = ds := rfl

theorem matchAt_marker (prior : Option Char) (text : List Char) :
    MARKER.matchAt { prior, rest := text } = (markAt text).map fun mark => markMatch mark.1 := by
  have three : ∀ n : Nat, n + 1 + 1 + 1 - n = 3 := by omega
  have four : ∀ n : Nat, n + 1 + 1 + 1 + 1 - n = 4 := by omega
  rcases text with _ | ⟨c, _ | ⟨d, _ | ⟨e, rest⟩⟩⟩
  · rfl
  · by_cases opens : c = '[' <;>
      simp [matchAt, MARKER, all, char, upToTwoDigits, digit, run, repeats, markAt, opens]
  · by_cases opens : c = '[' <;> by_cases first : isDecimal d = true <;>
      simp [matchAt, MARKER, all, char, upToTwoDigits, digit, run, repeats, markAt, opens, first]
  · by_cases opens : c = '['
    · by_cases first : isDecimal d = true
      · by_cases closes : e = ']'
        · subst closes
          simp [matchAt, MARKER, all, char, upToTwoDigits, digit, run, repeats, Place.read,
            markAt, markMatch, opens, first, closing_not_decimal, three]
        · by_cases second : isDecimal e = true
          · rcases rest with _ | ⟨f, rest⟩
            · simp [matchAt, MARKER, all, char, upToTwoDigits, digit, run, repeats, Place.read,
                markAt, opens, first, second, closes]
            · by_cases last : f = ']' <;>
                simp [matchAt, MARKER, all, char, upToTwoDigits, digit, run, repeats, Place.read,
                  markAt, markMatch, opens, first, second, closes, last, four]
          · simp [matchAt, MARKER, all, char, upToTwoDigits, digit, run, repeats, Place.read,
              markAt, opens, first, second, closes]
      · simp [matchAt, MARKER, all, char, upToTwoDigits, digit, run, repeats, markAt, opens,
          first]
    · simp [matchAt, MARKER, all, char, run, markAt, opens]

/-- A text cut at its markers. -/
inductive Cut : List Char → List Piece → Prop where
  | nil : Cut [] []
  | plain {c : Char} {rest : List Char} {ps : List Piece} :
      markAt (c :: rest) = none → Cut rest ps → Cut (c :: rest) (.plain c :: ps)
  | found {ds rest : List Char} {ps : List Piece} :
      Digits ds → Cut rest ps → Cut ('[' :: ds ++ ']' :: rest) (.found (markMatch ds) :: ps)

theorem cut_scan : ∀ (size : Nat) (text : List Char) (prior : Option Char), text.length ≤ size →
    Cut text (MARKER.scan prior 0 text)
  | _, [], _, _ => .nil
  | size + 1, c :: rest, prior, short => by
      have here := matchAt_marker prior (c :: rest)
      cases mark : markAt (c :: rest) with
      | none =>
          rw [mark] at here
          rw [scan_plain here]
          exact .plain mark (cut_scan size rest _ (Nat.le_of_succ_le_succ short))
      | some found =>
          obtain ⟨ds, behind⟩ := found
          rw [mark] at here
          obtain ⟨digits, whole⟩ := markAt_eq_some mark
          have shape : '[' :: ds ++ ']' :: behind = '[' :: (ds ++ [']']) ++ behind := by simp
          rw [whole, shape] at here
          rw [whole, List.length_append, List.length_cons] at short
          rw [whole]
          conv => arg 2; rw [shape]
          rw [scan_found here rfl]
          exact .found digits (cut_scan size behind _ (by
            rw [List.length_cons] at short
            omega))

/-- The pieces of a text are its markers and the characters between them. -/
theorem cut_pieces (text : List Char) : Cut text (MARKER.pieces text) :=
  cut_scan text.length text none (Nat.le_refl _)

/-- The numbers of the markers that open anywhere in a text. -/
def marksIn : List Char → List Nat
  | [] => []
  | c :: rest => ((markAt (c :: rest)).map fun mark => intOf mark.1).toList ++ marksIn rest

theorem marksIn_of_ne {c : Char} (rest : List Char) (other : c ≠ '[') :
    marksIn (c :: rest) = marksIn rest := by
  rw [marksIn, markAt_of_ne rest other]
  rfl

theorem marksIn_mark {ds : List Char} (digits : Digits ds) (rest : List Char) :
    marksIn ('[' :: ds ++ ']' :: rest) = intOf ds :: marksIn rest := by
  have within : ∀ xs : List Char, (∀ d ∈ xs, isDecimal d = true) →
      marksIn (xs ++ ']' :: rest) = marksIn rest := by
    intro xs each
    induction xs with
    | nil => exact marksIn_of_ne rest (by decide)
    | cons d xs ih =>
        have other : d ≠ '[' := fun same => by
          have := each d List.mem_cons_self
          rw [same, opening_not_decimal] at this
          cases this
        rw [List.cons_append, marksIn_of_ne _ other]
        exact ih fun x mem => each x (List.mem_cons_of_mem _ mem)
  have here := markAt_mark digits rest
  rw [List.cons_append] at here ⊢
  rw [marksIn, here, within ds digits.2]
  rfl

/-- No marker opens inside another, so a scan finds them all. -/
theorem markerNumbers_eq (text : List Char) : markerNumbers text = marksIn text := by
  have cut := cut_pieces text
  unfold markerNumbers Pattern.findAll
  generalize MARKER.pieces text = ps at cut ⊢
  induction cut with
  | nil => rfl
  | plain missed _ ih =>
      rw [marksIn, missed, ← ih]
      rfl
  | found digits _ ih =>
      rw [marksIn_mark digits, ← ih]
      rfl

/-! ## Stripping -/

theorem ne_opening_of_isSpace {c : Char} (blank : isSpace c = true) : c ≠ '[' := by
  rintro rfl
  exact absurd blank (by decide)

/-- The characters of a marker are not blank. -/
theorem mark_not_blank {ds : List Char} (digits : Digits ds) :
    ∀ c ∈ '[' :: ds ++ [']'], isSpace c = false := by
  intro c mem
  simp only [List.cons_append, List.mem_cons, List.mem_append, List.not_mem_nil, or_false] at mem
  rcases mem with rfl | digit | rfl
  · decide
  · exact isSpace_of_isDecimal (digits.2 c digit)
  · decide

/-- Blanks behind a text do not change what it opens with. -/
theorem markAt_append_blanks {text blanks : List Char} (blank : ∀ b ∈ blanks, isSpace b = true) :
    (markAt (text ++ blanks)).map Prod.fst = (markAt text).map Prod.fst := by
  cases short : markAt text with
  | some mark =>
      obtain ⟨digits, rfl⟩ := @markAt_eq_some text mark.1 mark.2 short
      have longer := markAt_mark digits (mark.2 ++ blanks)
      rw [List.append_assoc, @List.cons_append _ ']' mark.2 blanks, longer]
      rfl
  | none =>
      cases long : markAt (text ++ blanks) with
      | none => rfl
      | some mark =>
          obtain ⟨digits, shape⟩ := @markAt_eq_some (text ++ blanks) mark.1 mark.2 long
          have solid := mark_not_blank digits
          have whole : text ++ blanks = ('[' :: mark.1 ++ [']']) ++ mark.2 := by
            rw [shape]
            simp
          rcases List.append_eq_append_iff.mp whole with ⟨more, front, back⟩ | ⟨more, front, _⟩
          · -- the marker would reach into the blanks
            cases more with
            | nil =>
                rw [List.append_nil] at front
                rw [← front, ← List.append_nil ('[' :: mark.1 ++ [']']), List.append_assoc] at short
                exact absurd ((markAt_mark digits []).symm.trans short) (by simp)
            | cons b more =>
                have inBlanks : b ∈ blanks := back ▸ List.mem_cons_self
                have inMark : b ∈ '[' :: mark.1 ++ [']'] := by
                  rw [front]
                  exact List.mem_append_right _ List.mem_cons_self
                cases (blank b inBlanks).symm.trans (solid b inMark)
          · rw [front, List.append_assoc] at short
            exact absurd ((markAt_mark digits more).symm.trans short) (by simp)

theorem marksIn_append_blanks {blanks : List Char} (blank : ∀ b ∈ blanks, isSpace b = true) :
    ∀ text : List Char, marksIn (text ++ blanks) = marksIn text
  | [] => by
      rw [List.nil_append]
      induction blanks with
      | nil => rfl
      | cons b more ih =>
          rw [marksIn_of_ne more (ne_opening_of_isSpace (blank b List.mem_cons_self))]
          exact ih fun c mem => blank c (List.mem_cons_of_mem _ mem)
  | c :: text => by
      have here := congrArg (Option.map intOf) (@markAt_append_blanks (c :: text) blanks blank)
      simp only [Option.map_map] at here
      rw [List.cons_append, marksIn, marksIn, marksIn_append_blanks blank text]
      exact congrArg (fun found => Option.toList found ++ marksIn text) here

/-- Stripping a text touches no marker. -/
theorem marksIn_strip (text : List Char) : marksIn (strip text) = marksIn text := by
  have front : ∀ text : List Char, marksIn (text.dropWhile isSpace) = marksIn text := by
    intro text
    induction text with
    | nil => rfl
    | cons c rest ih =>
        by_cases blank : isSpace c = true
        · rw [List.dropWhile_cons_of_pos blank, ih,
            marksIn_of_ne rest (ne_opening_of_isSpace blank)]
        · rw [List.dropWhile_cons_of_neg blank]
  let trimmed := text.dropWhile isSpace
  have whole : strip text ++ (trimmed.reverse.takeWhile isSpace).reverse = trimmed := by
    rw [strip, stripOf, ← List.reverse_append, List.takeWhile_append_dropWhile,
      List.reverse_reverse]
  have blanks : ∀ b ∈ (trimmed.reverse.takeWhile isSpace).reverse, isSpace b = true :=
    fun b mem => List.mem_takeWhile_imp (List.mem_reverse.mp mem)
  rw [← marksIn_append_blanks blanks, whole]
  exact front text

/-! ## First occurrences -/

/-- The numbers of a list that were not seen, in order of first occurrence. -/
def firsts : List Nat → List Nat → List Nat
  | _, [] => []
  | seen, n :: rest => if n ∈ seen then firsts seen rest else n :: firsts (n :: seen) rest

theorem firsts_congr : ∀ (numbers : List Nat) {seen seen' : List Nat},
    (∀ n, n ∈ seen ↔ n ∈ seen') → firsts seen numbers = firsts seen' numbers
  | [], _, _, _ => rfl
  | n :: rest, seen, seen', same => by
      have next : ∀ m, m ∈ n :: seen ↔ m ∈ n :: seen' := fun m => by
        rw [List.mem_cons, List.mem_cons, same]
      rw [firsts, firsts, firsts_congr rest same, firsts_congr rest next]
      by_cases old : n ∈ seen
      · rw [if_pos old, if_pos ((same n).mp old)]
      · rw [if_neg old, if_neg fun mem => old ((same n).mpr mem)]

theorem firsts_eq_eraseDups : ∀ (numbers seen : List Nat),
    firsts seen numbers = (numbers.filter fun n => n ∉ seen).eraseDups
  | [], _ => rfl
  | n :: rest, seen => by
      rw [firsts]
      by_cases old : n ∈ seen
      · rw [if_pos old, List.filter_cons_of_neg (by simpa using old), firsts_eq_eraseDups rest]
      · rw [if_neg old, List.filter_cons_of_pos (by simpa using old), List.eraseDups_cons,
          firsts_eq_eraseDups rest, List.filter_filter]
        congr 3
        funext m
        by_cases same : m = n <;> simp [same]

/-- The first number that was not seen leads the list, and is seen from then on. -/
theorem firsts_of_find? {seen : List Nat} {n : Nat} : ∀ {numbers : List Nat},
    numbers.find? (fun m => m ∉ seen) = some n →
    firsts seen numbers = n :: firsts (n :: seen) numbers
  | m :: rest, found => by
      by_cases old : m ∈ seen
      · rw [List.find?_cons_of_neg (by simpa using old)] at found
        rw [firsts, firsts, if_pos old, if_pos (List.mem_cons_of_mem _ old),
          firsts_of_find? found]
      · rw [List.find?_cons_of_pos (by simpa using old)] at found
        cases found
        rw [firsts, firsts, if_neg old, if_pos List.mem_cons_self]

theorem head?_firsts (seen : List Nat) : ∀ numbers : List Nat,
    (firsts seen numbers).head? = numbers.find? fun m => m ∉ seen
  | [] => rfl
  | m :: rest => by
      rw [firsts]
      by_cases old : m ∈ seen
      · rw [if_pos old, List.find?_cons_of_neg (by simpa using old), head?_firsts seen rest]
      · rw [if_neg old, List.find?_cons_of_pos (by simpa using old)]
        rfl

/-! ## What dropped markers leave -/

/-- A piece `check` keeps. -/
def kept (sources : Nat) : Piece → Bool
  | .plain _ => true
  | .found m => 1 ≤ intOf (m.group 1) && intOf (m.group 1) ≤ sources

def closing : Option Piece → Bool
  | some (.plain c) => c == ']'
  | _ => false

/-- The number a bracket opens when the pieces behind it are read past the markers that
are dropped. -/
def opened (sources : Nat) (behind : List Piece) : Option Nat :=
  match behind.filter (kept sources) with
  | .plain d :: .plain e :: more =>
      if isDecimal d then
        if e = ']' then some (intOf [d])
        else if isDecimal e && closing more.head? then some (intOf [d, e]) else none
      else none
  | _ => none

/-- A marker of the returned text: one that was kept, or one that closed up where others
were dropped. -/
inductive Mark where
  | kept (n : Nat)
  | closed (n : Nat)
deriving DecidableEq

def Mark.number : Mark → Nat
  | .kept n => n
  | .closed n => n

def Mark.keptNumber : Mark → Option Nat
  | .kept n => some n
  | .closed _ => none

@[simp] theorem keptNumbers_kept (n : Nat) (rest : List Mark) :
    (Mark.kept n :: rest).filterMap Mark.keptNumber = n :: rest.filterMap Mark.keptNumber := rfl

@[simp] theorem keptNumbers_closed (n : Nat) (rest : List Mark) :
    (Mark.closed n :: rest).filterMap Mark.keptNumber = rest.filterMap Mark.keptNumber := rfl

/-- The markers `check` leaves, in order. -/
def marksLeft (sources : Nat) : List Piece → List Mark
  | [] => []
  | .plain c :: rest =>
      (if c = '[' then (opened sources rest).toList.map .closed else []) ++ marksLeft sources rest
  | .found m :: rest =>
      (if kept sources (.found m) then [.kept (intOf (m.group 1))] else []) ++
        marksLeft sources rest

/-- Every marker that closes up repeats a number a kept one before it carries, or carries
the number that is the next new one of those kept after it. -/
def Harmless : List Nat → List Mark → Bool
  | _, [] => true
  | seen, .kept n :: rest => Harmless (n :: seen) rest
  | seen, .closed n :: rest =>
      (n ∈ seen || (rest.filterMap Mark.keptNumber).find? (fun m => m ∉ seen) == some n) &&
        Harmless (n :: seen) rest

theorem check_eq (sources : Nat) : ∀ (ps : List Piece) (order : List Nat),
    (check sources ps order).1 = (ps.filter (kept sources)).flatMap Piece.text ∧
    (check sources ps order).2.1 =
      order ++ firsts order ((marksLeft sources ps).filterMap Mark.keptNumber)
  | [], order => ⟨rfl, (List.append_nil order).symm⟩
  | .plain c :: rest, order => by
      obtain ⟨text, numbers⟩ := check_eq sources rest order
      have none_kept : ∀ found : List Nat, (found.map Mark.closed).filterMap Mark.keptNumber = [] :=
        fun found => by
          rw [List.filterMap_eq_nil_iff]
          intro mark mem
          obtain ⟨n, _, rfl⟩ := List.mem_map.mp mem
          rfl
      refine ⟨by rw [check, text]; rfl, ?_⟩
      rw [check, numbers, marksLeft, List.filterMap_append]
      by_cases opens : c = '['
      · rw [if_pos opens, none_kept, List.nil_append]
      · rw [if_neg opens, List.filterMap_nil, List.nil_append]
  | .found m :: rest, order => by
      rw [check, marksLeft]
      by_cases valid : 1 ≤ intOf (m.group 1) ∧ intOf (m.group 1) ≤ sources
      · have isKept : kept sources (.found m) = true := by
          rw [kept, Bool.and_eq_true, decide_eq_true_eq, decide_eq_true_eq]
          exact valid
        rw [if_pos valid, if_pos isKept, List.filter_cons_of_pos isKept]
        obtain ⟨text, numbers⟩ :=
          check_eq sources rest (if intOf (m.group 1) ∈ order then order else
            order ++ [intOf (m.group 1)])
        refine ⟨by simp only [text]; rfl, ?_⟩
        simp only [numbers, List.cons_append, List.nil_append, keptNumbers_kept]
        rw [firsts]
        by_cases old : intOf (m.group 1) ∈ order
        · rw [if_pos old, if_pos old]
        · have same : ∀ n, n ∈ order ++ [intOf (m.group 1)] ↔ n ∈ intOf (m.group 1) :: order :=
            fun n => by rw [List.mem_append, List.mem_singleton, List.mem_cons, Or.comm]
          rw [if_neg old, if_neg old, List.append_assoc, firsts_congr _ same]
          rfl
      · have dropped : ¬ kept sources (.found m) = true := by
          rw [kept, Bool.and_eq_true, decide_eq_true_eq, decide_eq_true_eq]
          exact valid
        obtain ⟨text, numbers⟩ := check_eq sources rest order
        rw [if_neg valid, if_neg dropped, List.filter_cons_of_neg dropped]
        exact ⟨text, numbers⟩

/-- What is left goes on with `]` when its first piece is one. -/
theorem head_closes {ps : List Piece}
    (brackets : ∀ m, Piece.found m ∈ ps → ∃ more, m.text = '[' :: more) :
    (ps.flatMap Piece.text).head? = some ']' ↔ closing ps.head? = true := by
  cases ps with
  | nil => simp [closing]
  | cons p ps =>
      cases p with
      | plain c => simp [closing, Piece.text]
      | found m =>
          obtain ⟨inside, shape⟩ := brackets m List.mem_cons_self
          simp [closing, Piece.text, shape]

/-- What a bracket opens in the text that is left. -/
theorem markAt_opened {text : List Char} {ps : List Piece} (cut : Cut text ps) (sources : Nat) :
    (markAt ('[' :: (ps.filter (kept sources)).flatMap Piece.text)).map (fun m => intOf m.1) =
      opened sources ps := by
  have brackets : ∀ m, Piece.found m ∈ ps.filter (kept sources) → ∃ more, m.text = '[' :: more := by
    intro m mem
    have there := (List.mem_filter.mp mem).1
    clear mem
    induction cut with
    | nil => cases there
    | plain _ _ ih => exact ih ((List.mem_cons.mp there).resolve_left nofun)
    | found _ _ ih =>
        rcases List.mem_cons.mp there with same | later
        · cases same
          exact ⟨_, rfl⟩
        · exact ih later
  rw [opened]
  generalize ps.filter (kept sources) = left at brackets ⊢
  cases left with
  | nil => rfl
  | cons first more =>
      cases first with
      | found m =>
          obtain ⟨inside, shape⟩ := brackets m List.mem_cons_self
          simp only [List.flatMap_cons, Piece.text, shape, List.cons_append]
          rcases inside ++ more.flatMap Piece.text with _ | ⟨e, rest⟩
          · rfl
          · simp [markAt, opening_not_decimal]
      | plain d =>
          cases more with
          | nil => rfl
          | cons second more =>
              cases second with
              | found m =>
                  obtain ⟨inside, shape⟩ :=
                    brackets m (List.mem_cons_of_mem _ List.mem_cons_self)
                  simp [Piece.text, shape, markAt, opening_not_decimal]
              | plain e =>
                  have next : (more.flatMap Piece.text).head? = some ']' ↔
                      closing more.head? = true :=
                    head_closes fun m mem => brackets m (by simp [mem])
                  simp only [List.flatMap_cons, Piece.text, List.cons_append, List.nil_append,
                    markAt, next, true_and, Bool.and_eq_true]
                  by_cases first : isDecimal d = true
                  · rw [if_pos first, if_pos first]
                    by_cases closes : e = ']'
                    · rw [if_pos closes, if_pos closes]
                      rfl
                    · rw [if_neg closes, if_neg closes]
                      split <;> rfl
                  · rw [if_neg first, if_neg first]
                    rfl

/-- **The markers of the text that is left are those that were kept and those that closed
up.** -/
theorem marksIn_left {text : List Char} {ps : List Piece} (cut : Cut text ps) (sources : Nat) :
    marksIn ((ps.filter (kept sources)).flatMap Piece.text) =
      (marksLeft sources ps).map Mark.number := by
  induction cut with
  | nil => rfl
  | @plain c rest ps missed inner ih =>
      rw [List.filter_cons_of_pos rfl, List.flatMap_cons, Piece.text, marksLeft, List.map_append,
        ← ih]
      by_cases opens : c = '['
      · subst opens
        rw [if_pos rfl, List.singleton_append, marksIn, markAt_opened inner]
        cases opened sources ps <;> rfl
      · rw [if_neg opens, List.singleton_append, marksIn_of_ne _ opens]
        rfl
  | @found ds rest ps digits inner ih =>
      rw [marksLeft]
      by_cases valid : kept sources (.found (markMatch ds)) = true
      · rw [if_pos valid, List.filter_cons_of_pos valid, List.flatMap_cons, List.map_append, ← ih]
        have shape : (Piece.found (markMatch ds)).text = '[' :: ds ++ [']'] := rfl
        rw [shape, List.append_assoc, List.singleton_append, marksIn_mark digits]
        rfl
      · rw [if_neg valid, List.filter_cons_of_neg valid, ih]
        rfl

/-- Marks are harmless exactly when they show no number in another place than the kept ones
among them do. -/
theorem harmless_iff : ∀ (marks : List Mark) (seen : List Nat),
    Harmless seen marks = true ↔
      firsts seen (marks.filterMap Mark.keptNumber) = firsts seen (marks.map Mark.number)
  | [], _ => by simp [Harmless, firsts]
  | .kept n :: rest, seen => by
      rw [Harmless, harmless_iff rest, keptNumbers_kept, List.map_cons, firsts,
        firsts, Mark.number]
      by_cases old : n ∈ seen
      · have same : ∀ m, m ∈ n :: seen ↔ m ∈ seen := fun m => by
          rw [List.mem_cons, or_iff_right_iff_imp]
          rintro rfl
          exact old
        rw [if_pos old, if_pos old, firsts_congr _ same, firsts_congr _ same]
      · rw [if_neg old, if_neg old, List.cons.injEq, and_iff_right rfl]
  | .closed n :: rest, seen => by
      rw [Harmless, Bool.and_eq_true, harmless_iff rest, keptNumbers_closed,
        List.map_cons, firsts, Mark.number, Bool.or_eq_true, decide_eq_true_eq, beq_iff_eq]
      by_cases old : n ∈ seen
      · have same : ∀ m, m ∈ n :: seen ↔ m ∈ seen := fun m => by
          rw [List.mem_cons, or_iff_right_iff_imp]
          rintro rfl
          exact old
        rw [if_pos old, firsts_congr _ same, firsts_congr _ same]
        exact and_iff_right (.inl old)
      · rw [if_neg old]
        constructor
        · rintro ⟨known | next, later⟩
          · exact absurd known old
          · rw [firsts_of_find? next, later]
        · intro same
          have next := (head?_firsts seen (rest.filterMap Mark.keptNumber)).symm.trans
            (congrArg List.head? same)
          refine ⟨.inr next, ?_⟩
          rw [firsts_of_find? next] at same
          exact (List.cons.inj same).2

/-- What `check` keeps points at a source. -/
theorem mem_keptNumbers {sources n : Nat} : ∀ {ps : List Piece},
    n ∈ (marksLeft sources ps).filterMap Mark.keptNumber → 1 ≤ n ∧ n ≤ sources
  | .plain c :: rest, mem => by
      rw [marksLeft, List.filterMap_append, List.mem_append] at mem
      rcases mem with closed | later
      · obtain ⟨mark, there, number⟩ := List.mem_filterMap.mp closed
        by_cases opens : c = '['
        · rw [if_pos opens] at there
          obtain ⟨m, _, rfl⟩ := List.mem_map.mp there
          cases number
        · rw [if_neg opens] at there
          cases there
      · exact mem_keptNumbers later
  | .found m :: rest, mem => by
      rw [marksLeft, List.filterMap_append, List.mem_append] at mem
      rcases mem with here | later
      · by_cases valid : kept sources (.found m) = true
        · rw [if_pos valid, keptNumbers_kept, List.filterMap_nil, List.mem_singleton] at here
          rw [kept, Bool.and_eq_true, decide_eq_true_eq, decide_eq_true_eq] at valid
          rw [here]
          exact valid
        · rw [if_neg valid] at here
          cases here
      · exact mem_keptNumbers later

theorem mem_of_mem_firsts {n : Nat} : ∀ {numbers seen : List Nat},
    n ∈ firsts seen numbers → n ∈ numbers
  | m :: rest, seen, mem => by
      rw [firsts] at mem
      by_cases old : m ∈ seen
      · rw [if_pos old] at mem
        exact List.mem_cons_of_mem _ (mem_of_mem_firsts mem)
      · rw [if_neg old] at mem
        rcases List.mem_cons.mp mem with rfl | later
        · exact List.mem_cons_self
        · exact List.mem_cons_of_mem _ (mem_of_mem_firsts later)

theorem harmless_kept : ∀ (numbers seen : List Nat), Harmless seen (numbers.map .kept) = true
  | [], _ => rfl
  | n :: rest, seen => harmless_kept rest (n :: seen)

/-- Where no marker is dropped, none closes up. -/
theorem harmless_of_none_dropped {text : List Char} {sources : Nat}
    (valid : ∀ n ∈ markerNumbers text, 1 ≤ n ∧ n ≤ sources) :
    Harmless [] (marksLeft sources (MARKER.pieces text)) = true := by
  have onlyKept : ∀ {text : List Char} {ps : List Piece}, Cut text ps →
      (∀ n ∈ marksIn text, 1 ≤ n ∧ n ≤ sources) →
      ps.filter (kept sources) = ps ∧ ps.flatMap Piece.text = text ∧
        marksLeft sources ps = (marksIn text).map .kept := by
    intro text ps cut
    induction cut with
    | nil => exact fun _ => ⟨rfl, rfl, rfl⟩
    | @plain c rest ps missed inner ih =>
        intro valid
        have same : marksIn (c :: rest) = marksIn rest := by
          rw [marksIn, missed]
          rfl
        rw [same] at valid ⊢
        obtain ⟨whole, flat, marks⟩ := ih valid
        refine ⟨by rw [List.filter_cons_of_pos rfl, whole],
          by rw [List.flatMap_cons, flat]; rfl, ?_⟩
        have opens := markAt_opened inner sources
        rw [whole, flat] at opens
        rw [marksLeft, marks, ← opens]
        by_cases bracket : c = '['
        · rw [if_pos bracket, ← bracket, missed]
          rfl
        · rw [if_neg bracket, List.nil_append]
    | @found ds rest ps digits inner ih =>
        intro valid
        rw [marksIn_mark digits] at valid ⊢
        obtain ⟨whole, flat, marks⟩ := ih fun n mem => valid n (List.mem_cons_of_mem _ mem)
        have isKept : kept sources (.found (markMatch ds)) = true := by
          rw [kept, Bool.and_eq_true, decide_eq_true_eq, decide_eq_true_eq]
          exact valid _ List.mem_cons_self
        refine ⟨by rw [List.filter_cons_of_pos isKept, whole], ?_, ?_⟩
        · rw [List.flatMap_cons, flat]
          simp [Piece.text, markMatch]
        · rw [marksLeft, if_pos isKept, marks]
          rfl
  rw [markerNumbers_eq] at valid
  rw [(onlyKept (cut_pieces text) valid).2.2]
  exact harmless_kept _ _

/-! ## Exact citations -/

/-- Every marker points at a source, and the citations are the markers' numbers in order of
first occurrence, each built from its source. -/
structure Exact (chunks : List RetrievedChunk) (given : GroundedAnswer) : Prop where
  inRange : ∀ n ∈ markerNumbers given.text.toList, 1 ≤ n ∧ n ≤ chunks.length
  numbers : given.citations.map Citation.number = (markerNumbers given.text.toList).eraseDups
  built : ∀ c ∈ given.citations, ∃ chunk,
    1 ≤ c.number ∧ chunks[c.number - 1]? = some chunk ∧ c = citation c.number chunk

/-- A call answers, and what it answers abstains or is exact. -/
def AnswersExactly (chunks : List RetrievedChunk) : Option GroundedAnswer → Prop
  | none => False
  | some given => given.abstained = false → Exact chunks given

theorem map_number_citations {chunks : List RetrievedChunk} : ∀ {order : List Nat},
    (∀ n ∈ order, 1 ≤ n ∧ n ≤ chunks.length) →
    (order.filterMap fun n => (chunks[n - 1]?).map (citation n)).map Citation.number = order
  | [], _ => rfl
  | n :: order, valid => by
      have bounds := valid n List.mem_cons_self
      have here : chunks[n - 1]? = some chunks[n - 1] := List.getElem?_eq_getElem (by omega)
      rw [List.filterMap_cons_some (b := citation n chunks[n - 1]) (by rw [here]; rfl),
        List.map_cons, map_number_citations fun m mem => valid m (List.mem_cons_of_mem _ mem)]
      rfl

/-- The marks of a text decide whether its citations are exact. -/
theorem exact_iff_harmless {chunks : List RetrievedChunk} {given : GroundedAnswer}
    {text : List Char} (shown : given.text =
      String.ofList (strip (check chunks.length (MARKER.pieces text) []).1))
    (listed : given.citations = ((check chunks.length (MARKER.pieces text) []).2.1).filterMap
      fun n => (chunks[n - 1]?).map (citation n)) :
    Exact chunks given ↔ Harmless [] (marksLeft chunks.length (MARKER.pieces text)) = true := by
  let marks := marksLeft chunks.length (MARKER.pieces text)
  obtain ⟨left, order⟩ := check_eq chunks.length (MARKER.pieces text) []
  have seen : markerNumbers given.text.toList = marks.map Mark.number := by
    rw [shown, String.toList_ofList, markerNumbers_eq, marksIn_strip, left,
      marksIn_left (cut_pieces text)]
  have erased : (marks.map Mark.number).eraseDups = firsts [] (marks.map Mark.number) := by
    rw [firsts_eq_eraseDups]
    exact congrArg List.eraseDups (List.filter_eq_self.mpr fun _ _ => rfl).symm
  have valid : ∀ n ∈ firsts [] (marks.filterMap Mark.keptNumber), 1 ≤ n ∧ n ≤ chunks.length :=
    fun n mem => mem_keptNumbers (mem_of_mem_firsts mem)
  rw [order, List.nil_append] at listed
  have numbers : given.citations.map Citation.number =
      firsts [] (marks.filterMap Mark.keptNumber) := by
    rw [listed]
    exact map_number_citations valid
  rw [harmless_iff]
  constructor
  · intro exact
    rw [← numbers, exact.numbers, seen, erased]
  · intro same
    refine ⟨fun n mem => ?_, by rw [numbers, seen, erased]; exact same, fun c mem => ?_⟩
    · rw [seen] at mem
      have first : n ∈ firsts [] (marks.map Mark.number) := by
        rw [← erased]
        exact List.mem_eraseDups.mpr mem
      rw [← same] at first
      exact valid n first
    · rw [listed] at mem
      obtain ⟨n, inOrder, made⟩ := List.mem_filterMap.mp mem
      obtain ⟨chunk, there, rfl⟩ := Option.map_eq_some_iff.mp made
      exact ⟨chunk, (valid n inOrder).1, there, rfl⟩

/-- **`finalize` answers with exact citations exactly when the answer is an abstention, or
re-pointing it raises nothing and the markers that close up where others are dropped are
harmless.** -/
theorem citations_exact_iff (answer : String) (chunks : List RetrievedChunk) :
    AnswersExactly chunks (finalize host word answer chunks) ↔
      isAbstention host word (normalizeMarkers word answer.toList chunks.length) = true ∨
      ∃ text repointed,
        repointCitations host word (normalizeMarkers word answer.toList chunks.length) chunks =
          some (text, repointed) ∧
        Harmless [] (marksLeft chunks.length (MARKER.pieces text)) = true := by
  simp only [finalize]
  by_cases abstains :
      isAbstention host word (normalizeMarkers word answer.toList chunks.length) = true
  · rw [if_pos abstains, or_iff_left_of_imp fun _ => abstains, iff_true_right abstains]
    intro answered
    cases answered
  · rw [if_neg abstains, or_iff_right abstains]
    cases repointed : repointCitations host word
        (normalizeMarkers word answer.toList chunks.length) chunks with
    | none => simp [AnswersExactly]
    | some both =>
        obtain ⟨text, changed⟩ := both
        let given : GroundedAnswer := {
          text := String.ofList (strip (check chunks.length (MARKER.pieces text) []).1)
          citations := (check chunks.length (MARKER.pieces text) []).2.1.filterMap
            fun n => (chunks[n - 1]?).map (citation n)
          abstained := false
          invalidCitations := (check chunks.length (MARKER.pieces text) []).2.2
          repointedCitations := changed }
        have decided := @exact_iff_harmless chunks given text rfl rfl
        constructor
        · intro exact
          exact ⟨text, changed, rfl, decided.mp (exact rfl)⟩
        · rintro ⟨text', changed', same, harmless⟩
          cases same
          exact fun _ => decided.mpr harmless

/-! ## Pole -/

/-- `\w` on ASCII text. -/
def plainWord (c : Char) : Bool := c.isAlphanum || c == '_'

def leaveSection : RetrievedChunk where
  docKey := "KB-HR-001"
  version := 1
  title := "Annual leave"
  department := "hr"
  classification := .internal
  locator := "1"
  content := "Leave is requested in the portal."
  context := "Leave is requested in the portal."
  docUpdatedAt := "2026-08-30"

/-- **A bracket, a marker without a source, a digit and a bracket: dropping the one marker
leaves another, which the citations do not list.** -/
theorem marker_closes_up :
    finalize Host.plain plainWord "See [[9]1]." [leaveSection] =
      some { text := "See [1].", citations := [], abstained := false, invalidCitations := 1 } ∧
    ¬ AnswersExactly [leaveSection]
      (finalize Host.plain plainWord "See [[9]1]." [leaveSection]) := by
  have returned : finalize Host.plain plainWord "See [[9]1]." [leaveSection] =
      some { text := "See [1].", citations := [], abstained := false, invalidCitations := 1 } := by
    decide +kernel
  refine ⟨returned, fun exactly => ?_⟩
  rw [returned] at exactly
  have listed := (exactly rfl).numbers
  have shown : markerNumbers "See [1].".toList = [1] := by decide +kernel
  simp only [shown] at listed
  cases listed

end OpsAssist
