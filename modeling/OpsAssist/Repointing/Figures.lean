/-
# OpsAssist.Repointing.Figures -- figures that stay the same

Figures are read from a text with a blank for every marker, and neither a number word nor
a figure reads across a blank: the figures of a text are those of its parts between the
markers (`stated_split`).  What stands between repeated references states nothing
(`quiet_of_joins`), so no edit changes the figures of a text (`figures_edits`).
-/
import Mathlib.Data.Bool.AllAny
import OpsAssist.Repointing.Edits

namespace OpsAssist.Repointing

set_option autoImplicit false

open Theory Theory.Pattern Theory.Text

variable (host : Host) (word : Char → Bool)

/-! ## Figures part by part -/

/-- A piece with its number word in digits. -/
def inDigits : Piece → Option (List Char)
  | .plain c => some [c]
  | .found m => ((NUMBER_WORDS.map String.toList).idxOf? (host.lower (m.group 1))).map fun i =>
      (toString i).toList

/-- A text with its number words in digits, the character before it given. -/
def spelt (prior : Option Char) (text : List Char) : Option (List Char) :=
  (((NUMBER_WORD word).scan prior 0 text).mapM (inDigits host)).map List.flatten

def figuresIn (prior : Option Char) (text : List Char) : List (List Char) :=
  (((FIGURE word).scan prior 0 text).filterMap matchOf).map fun m =>
    (m.group 1).filter (· ≠ ',') ++ m.group 2

def stated (prior : Option Char) (text : List Char) : Option (List (List Char)) :=
  (spelt host word prior text).map (figuresIn word prior)

theorem figures_eq (text : List Char) :
    figures host word text = (stated host word none (blanked text)).map List.eraseDups := by
  have pieces : figures host word text =
      (((NUMBER_WORD word).scan none 0 (blanked text)).mapM (inDigits host)).bind fun parts =>
        some ((((FIGURE word).findAll parts.flatten).map fun m =>
          (m.group 1).filter (· ≠ ',') ++ m.group 2).eraseDups) := by
    rw [figures]
    congr 2
  rw [pieces, stated, spelt]
  cases ((NUMBER_WORD word).scan none 0 (blanked text)).mapM (inDigits host) with
  | none => rfl
  | some parts =>
      simp only [Option.bind_some, Option.map_some, findAll_eq]
      rfl

theorem blank_not_letter {letter c : Char} (blank : isSpace c = true)
    (solid : isSpace letter = false) (upper : isSpace letter.toUpper = false) :
    sameLetter letter c = false := by
  by_contra same
  simp only [Bool.not_eq_false, sameLetter, Bool.or_eq_true, Bool.and_eq_true, beq_iff_eq] at same
  rcases same with ((((rfl | rfl) | ⟨-, rfl⟩) | ⟨-, rfl | rfl⟩) | ⟨-, kelvin⟩)
  · cases blank.symm.trans solid
  · cases blank.symm.trans upper
  · revert blank; decide
  · revert blank; decide
  · revert blank; decide
  · rw [isSpace, kelvin] at blank
    revert blank
    decide

theorem number_letters : ∀ w ∈ NUMBER_WORDS, ∀ letter ∈ w.toList,
    isSpace letter = false ∧ isSpace letter.toUpper = false := by
  intro w listed
  refine List.all_iff_forall_prop.mp ?_
  revert w listed
  decide +kernel

theorem avoids_numberWord : (NUMBER_WORD word).Avoids ' ' := by
  refine ⟨trivial, ?_, trivial, trivial⟩
  refine avoids_oneOf fun p choice => ?_
  obtain ⟨w, listed, rfl⟩ := List.mem_map.mp choice
  exact avoids_anyCase fun letter mem =>
    let solid := number_letters w listed letter mem
    blank_not_letter rfl solid.1 solid.2

theorem avoids_figure : (FIGURE word).Avoids ' ' := by
  have digits : isDecimal ' ' = false := by decide +kernel
  have comma : decide (' ' = ',') = false := rfl
  have dot : decide (' ' = '.') = false := rfl
  have percent : decide (' ' = '%') = false := rfl
  exact ⟨trivial, ⟨⟨digits, ⟨comma, digits, trivial⟩, trivial⟩,
    ⟨digits, ⟨dot, digits, trivial⟩, trivial⟩⟩, percent, trivial⟩

theorem spelt_split (prior : Option Char) (a b : List Char) :
    spelt host word prior (a ++ ' ' :: b) =
      (spelt host word prior (a ++ [' '])).bind fun x =>
        (spelt host word (some ' ') b).map (x ++ ·) := by
  rw [spelt, scan_avoided (avoids_numberWord word) b a prior 0 (Nat.zero_le _), List.mapM_append,
    spelt, spelt]
  cases ((NUMBER_WORD word).scan prior 0 (a ++ [' '])).mapM (inDigits host) with
  | none => rfl
  | some x =>
      cases ((NUMBER_WORD word).scan (some ' ') 0 b).mapM (inDigits host) with
      | none => rfl
      | some y => simp

theorem spelt_last {prior : Option Char} {a x : List Char}
    (known : spelt host word prior (a ++ [' ']) = some x) : ∃ front, x = front ++ [' '] := by
  obtain ⟨ps, last⟩ := scan_last (avoids_numberWord word) a prior 0 (Nat.zero_le _)
  rw [spelt, last, List.mapM_append] at known
  cases parts : ps.mapM (inDigits host) with
  | none =>
      rw [parts] at known
      cases known
  | some parts' =>
      rw [parts] at known
      refine ⟨parts'.flatten, ?_⟩
      have shown : some ((parts' ++ [[' ']]).flatten) = some x := known
      rw [← Option.some.inj shown]
      simp

/-- **The figures on either side of a blank.** -/
theorem stated_split (prior : Option Char) (a b : List Char) :
    stated host word prior (a ++ ' ' :: b) =
      (stated host word prior (a ++ [' '])).bind fun x =>
        (stated host word (some ' ') b).map (x ++ ·) := by
  rw [stated, spelt_split, stated, stated]
  cases front : spelt host word prior (a ++ [' ']) with
  | none => rfl
  | some x =>
      obtain ⟨x', rfl⟩ := spelt_last host word front
      cases spelt host word (some ' ') b with
      | none => rfl
      | some y =>
          have cut := scan_avoided (avoids_figure word) y x' prior 0 (Nat.zero_le _)
          simp only [Option.bind_some, Option.map_some, figuresIn, List.append_assoc,
            List.singleton_append, cut, List.filterMap_append, List.map_append]

/-! ## Texts that state nothing -/

/-- A number word can begin with these two characters. -/
def startsNumber (c d : Char) : Bool :=
  NUMBER_WORDS.any fun w =>
    match w.toList with
    | letter :: letter' :: _ => sameLetter letter c && sameLetter letter' d
    | _ => true

/-- No number word begins anywhere in a text. -/
def Calm (text : List Char) : Prop := text.IsChain fun c d => startsNumber c d = false

instance (text : List Char) : Decidable (Calm text) :=
  inferInstanceAs (Decidable (text.IsChain fun c d => startsNumber c d = false))

theorem taken_numberWord {prior : Option Char} {rest : List Char} {m : Match}
    (found : (NUMBER_WORD word).taken { prior, rest } = some m) :
    ∃ c d more, rest = c :: d :: more ∧ startsNumber c d = true := by
  obtain ⟨matched, -⟩ := Option.filter_eq_some_iff.mp found
  obtain ⟨t, mem, -⟩ := matchAt_mem matched
  obtain ⟨u, edge, mem⟩ := mem_run_all_cons.mp mem
  obtain ⟨v, inside, -⟩ := mem_run_all_cons.mp mem
  obtain ⟨rfl, -⟩ := mem_run_look edge
  obtain ⟨w, choice, -, -⟩ := mem_run_group inside
  obtain ⟨p, listed, read⟩ := mem_run_oneOf choice
  obtain ⟨number, mem, rfl⟩ := List.mem_map.mp listed
  obtain ⟨front, shape, each⟩ := mem_run_anyCase read
  have long : ∀ w ∈ NUMBER_WORDS, 2 ≤ w.toList.length := by decide +kernel
  have two := long number mem
  cases letters : number.toList with
  | nil =>
      rw [letters] at two
      exact absurd two (by decide)
  | cons letter letters' =>
      cases letters' with
      | nil =>
          rw [letters] at two
          exact absurd two (by simp)
      | cons letter' others =>
          rw [letters] at each
          obtain ⟨c, front', first, later, rfl⟩ := List.forall₂_cons_left_iff.mp each
          obtain ⟨d, front'', second, -, rfl⟩ := List.forall₂_cons_left_iff.mp later
          refine ⟨c, d, front'' ++ w.rest, shape, ?_⟩
          rw [startsNumber, List.any_eq_true]
          refine ⟨number, mem, ?_⟩
          simp only [letters]
          rw [first, second]
          rfl

theorem misses_calm {z : Char} {behind : List Char} : ∀ {text : List Char} {prior : Option Char},
    Calm (text ++ [z]) → (NUMBER_WORD word).Misses prior text (z :: behind)
  | [], _, _ => trivial
  | [c], prior, calm => by
      refine ⟨?_, trivial⟩
      cases found : (NUMBER_WORD word).taken { prior, rest := [c] ++ z :: behind } with
      | none => rfl
      | some m =>
          obtain ⟨c', d, more, shape, starts⟩ := taken_numberWord word found
          cases shape
          have pair := (List.isChain_cons_cons.mp calm).1
          cases starts.symm.trans pair
  | c :: d :: text, prior, calm => by
      obtain ⟨pair, later⟩ := List.isChain_cons_cons.mp calm
      refine ⟨?_, @misses_calm z behind (d :: text) _ later⟩
      cases found : (NUMBER_WORD word).taken { prior, rest := c :: d :: text ++ z :: behind } with
      | none => rfl
      | some m =>
          obtain ⟨c', d', more, shape, starts⟩ := taken_numberWord word found
          cases shape
          cases starts.symm.trans pair

/-- A figure begins with a digit. -/
theorem taken_figure {prior : Option Char} {c : Char} {rest : List Char} {m : Match}
    (found : (FIGURE word).taken { prior, rest := c :: rest } = some m) : isDecimal c = true := by
  obtain ⟨matched, -⟩ := Option.filter_eq_some_iff.mp found
  obtain ⟨t, mem, -⟩ := matchAt_mem matched
  obtain ⟨u, before, mem⟩ := mem_run_all_cons.mp mem
  obtain ⟨v, inside, -⟩ := mem_run_all_cons.mp mem
  obtain ⟨rfl, -⟩ := mem_run_look before
  obtain ⟨w, choice, -, -⟩ := mem_run_group inside
  have first : ∀ {least : Nat} {most : Option Nat} {x : Place},
      x ∈ (rep (least + 1) most digit).run { prior, rest := c :: rest } → isDecimal c = true := by
    intro least most x read
    obtain ⟨ds, shape, all, enough, -, -⟩ := mem_run_rep_set read
    cases ds with
    | nil => exact absurd enough (by simp)
    | cons d ds =>
        cases shape
        exact all _ List.mem_cons_self
  rcases mem_run_alt.mp choice with grouped | plain
  · obtain ⟨x, read, -⟩ := mem_run_all_cons.mp grouped
    exact first read
  · obtain ⟨x, read, -⟩ := mem_run_all_cons.mp plain
    exact first read

theorem misses_figure {behind : List Char} : ∀ {text : List Char} {prior : Option Char},
    (∀ c ∈ text, isDecimal c = false) → (FIGURE word).Misses prior text behind
  | [], _, _ => trivial
  | c :: text, prior, digitless => by
      refine ⟨?_, misses_figure fun d mem => digitless d (List.mem_cons_of_mem c mem)⟩
      cases found : (FIGURE word).taken { prior, rest := c :: text ++ behind } with
      | none => rfl
      | some m => cases (digitless c List.mem_cons_self).symm.trans (taken_figure word found)

/-- A text that states nothing when a blank follows it. -/
def Quiet (text : List Char) : Prop := Calm (text ++ [' ']) ∧ ∀ c ∈ text, isDecimal c = false

theorem stated_quiet {gap : List Char} (quiet : Quiet gap) (prior : Option Char) (b : List Char) :
    stated host word prior (gap ++ ' ' :: b) = stated host word (some ' ') b := by
  have passed : ∀ ps : List Piece, (gap.map Piece.plain ++ ps).mapM (inDigits host) =
      (ps.mapM (inDigits host)).map fun parts => gap.map (fun c => [c]) ++ parts := by
    intro ps
    rw [List.mapM_append]
    have plain : (gap.map Piece.plain).mapM (inDigits host) = some (gap.map fun c => [c]) := by
      clear quiet
      induction gap with
      | nil => rfl
      | cons c gap ih =>
          rw [List.map_cons, List.mapM_cons, ih]
          rfl
    rw [plain]
    cases ps.mapM (inDigits host) <;> rfl
  have front : spelt host word prior (gap ++ ' ' :: b) =
      (spelt host word (some ' ') b).map fun t => gap ++ ' ' :: t := by
    rw [spelt, scan_misses (misses_calm word quiet.1),
      scan_passed (taken_at_avoided (avoids_numberWord word) _ b), passed, List.mapM_cons, spelt]
    cases ((NUMBER_WORD word).scan (some ' ') 0 b).mapM (inDigits host) with
    | none => rfl
    | some parts =>
        have flat : (gap.map fun c => [c]).flatten = gap := by
          rw [← List.flatMap_def, List.flatMap_singleton']
        simp [inDigits, flat]
  rw [stated, front, stated]
  cases spelt host word (some ' ') b with
  | none => rfl
  | some t =>
      simp only [Option.map_some, figuresIn]
      rw [scan_misses (misses_figure word quiet.2),
        scan_passed (taken_at_avoided (avoids_figure word) _ t), List.filterMap_append,
        filterMap_plain]
      rfl

/-! ## What joins repeated references -/

theorem calm_blank {c d : Char} (blank : isSpace c = true ∨ isSpace d = true) :
    startsNumber c d = false := by
  rw [startsNumber, List.any_eq_false]
  intro w listed
  have long : ∀ w ∈ NUMBER_WORDS, 2 ≤ w.toList.length := by decide +kernel
  have two := long w listed
  have letters := number_letters w listed
  cases shape : w.toList with
  | nil =>
      rw [shape] at two
      exact absurd two (by simp)
  | cons letter more =>
      cases more with
      | nil =>
          rw [shape] at two
          exact absurd two (by simp)
      | cons letter' others =>
          rw [shape] at letters
          obtain ⟨first, second, -⟩ := List.forall_mem_cons.mp letters |>.imp id
            List.forall_mem_cons.mp
          dsimp only
          rcases blank with left | right
          · rw [blank_not_letter left first.1 first.2]
            simp
          · rw [blank_not_letter right second.1 second.2]
            simp

/-- Blanks keep what is calm on either side of them apart. -/
theorem calm_through {x b y : List Char} (front : Calm x) (blanks : Blanks b) (back : Calm y)
    (apart : b = [] → ∀ c ∈ x.getLast?, ∀ d ∈ y.head?, startsNumber c d = false) :
    Calm (x ++ (b ++ y)) := by
  induction b generalizing x with
  | nil =>
      exact List.isChain_append.mpr ⟨front, back, apart rfl⟩
  | cons c b ih =>
      have blank := blanks c List.mem_cons_self
      have within : Calm (x ++ [c]) := by
        refine List.isChain_append.mpr ⟨front, List.isChain_singleton c, ?_⟩
        rintro d - e last
        cases last
        exact calm_blank (.inr blank)
      have whole := ih within (fun d mem => blanks d (List.mem_cons_of_mem c mem)) (by
        rintro - d last e -
        rw [List.getLast?_append] at last
        cases last
        exact calm_blank (.inl blank))
      rwa [List.append_assoc, List.singleton_append, ← List.cons_append] at whole

theorem calm_again {again : List Char} (more : again = [] ∨ SourceWord again) :
    Calm (again ++ [' ']) := by
  rcases more with rfl | rfl | rfl <;> decide +kernel

theorem head_again {again : List Char} (more : again = [] ∨ SourceWord again) :
    ∀ d ∈ (again ++ [' ']).head?, d = ' ' ∨ d = 's' := by
  rcases more with rfl | rfl | rfl <;> simp

theorem digitless_again {again : List Char} (more : again = [] ∨ SourceWord again) :
    ∀ c ∈ again, isDecimal c = false := by
  rcases more with rfl | rfl | rfl <;> exact List.all_iff_forall_prop.mp (by decide +kernel)

theorem digitless_blanks {b : List Char} (blanks : Blanks b) : ∀ c ∈ b, isDecimal c = false := by
  intro c mem
  by_contra digit
  rw [Bool.not_eq_false] at digit
  cases (isSpace_of_isDecimal digit).symm.trans (blanks c mem)

theorem made_of_listed {sep : List Char} (listed : Listed sep) :
    ∀ c ∈ sep, c ∈ ['a', 'n', 'd', ','] ∨ isSpace c = true := by
  intro c mem
  cases listed with
  | comma blanks =>
      rcases List.mem_cons.mp mem with rfl | mem
      · exact .inl (by simp)
      · exact .inr (blanks c mem)
  | commaAnd blanks blanks' _ =>
      simp only [List.mem_cons, List.mem_append] at mem ⊢
      rcases mem with rfl | mem | rfl | rfl | rfl | mem
      · simp
      · exact .inr (blanks c mem)
      · simp
      · simp
      · simp
      · exact .inr (blanks' c mem)
  | and blanks _ blanks' _ =>
      simp only [List.mem_cons, List.mem_append] at mem ⊢
      rcases mem with mem | rfl | rfl | rfl | mem
      · exact .inr (blanks c mem)
      · simp
      · simp
      · simp
      · exact .inr (blanks' c mem)

/-- **What joins two references to one source states nothing.** -/
theorem quiet_of_joins {pre gap : List Char} (joins : Joins pre gap) : Quiet gap := by
  rcases joins with blanks | ⟨-, -, sep, again, -, -, listed, more, rfl⟩
  · refine ⟨?_, digitless_blanks blanks⟩
    exact @calm_through [] gap [' '] List.isChain_nil blanks (List.isChain_singleton _) nofun
  · have behind : ∀ {b' : List Char}, Blanks b' → b' ≠ [] →
        Calm ('a' :: 'n' :: 'd' :: (b' ++ (again ++ [' ']))) := fun blanks' some_blank =>
      @calm_through ['a', 'n', 'd'] _ _ (by decide +kernel) blanks' (calm_again more)
        fun none => absurd none some_blank
    have digits : ∀ c ∈ ['a', 'n', 'd', ','], isDecimal c = false :=
      List.all_iff_forall_prop.mp (by decide +kernel)
    refine ⟨?_, ?_⟩
    · rw [List.append_assoc]
      cases listed with
      | @comma b blanks =>
          refine @calm_through [','] b _ (List.isChain_singleton _) blanks (calm_again more) ?_
          rintro - c last d next
          cases last
          rcases head_again more d next with rfl | rfl <;> decide +kernel
      | @commaAnd b b' blanks blanks' some_blank =>
          have whole := @calm_through [','] b _ (List.isChain_singleton _) blanks
            (behind blanks' some_blank) (by
              rintro - c last d next
              cases last
              cases next
              decide +kernel)
          simpa using whole
      | @and b b' blanks _ blanks' some_blank =>
          have whole := @calm_through [] b _ List.isChain_nil blanks
            (behind blanks' some_blank) nofun
          simpa using whole
    · intro c mem
      rcases List.mem_append.mp mem with inSep | inAgain
      · rcases made_of_listed listed c inSep with letter | blank
        · exact digits _ letter
        · exact digitless_blanks (b := [c]) (fun d only => by
            rw [List.mem_singleton.mp only]
            exact blank) c List.mem_cons_self
      · exact digitless_again more c inAgain

/-! ## Edited texts -/

theorem stated_edit {x y : List Char} (step : Edit Digits x y) :
    stated host word none (blanked y) = stated host word none (blanked x) := by
  -- what stands before the first marker of the edit is the same
  have behind : ∀ a b b' : List Char,
      stated host word (some ' ') b' = stated host word (some ' ') b →
      stated host word none (a ++ ' ' :: b') = stated host word none (a ++ ' ' :: b) := by
    intro a b b' same
    rw [stated_split, stated_split host word none a b, same]
  have nothing : Quiet [] := ⟨List.isChain_singleton _, nofun⟩
  cases step with
  | replaced digits digits' => rw [blanked_mark digits, blanked_mark digits']
  | @added pre ds ds' post digits digits' =>
      have inner := blanked_mark digits' [] post
      rw [List.nil_append, blanked_free List.not_mem_nil, List.nil_append] at inner
      rw [blanked_mark digits, blanked_mark digits, inner]
      exact behind _ _ _ (stated_quiet host word nothing _ _)
  | collapsed step =>
      obtain ⟨digits, joins⟩ := step
      rw [blanked_mark digits, blanked_mark digits, blanked_mark digits, blanked_free joins.free]
      exact behind _ _ _ (stated_quiet host word (quiet_of_joins joins) _ _).symm

/-- **Edits that leave markers where there were some change no figure.** -/
theorem figures_edits {x y : List Char} (chain : Edits Digits x y) :
    figures host word y = figures host word x := by
  induction chain with
  | refl => rfl
  | tail _ step ih => rw [← ih, figures_eq, figures_eq, stated_edit host word step]

end OpsAssist.Repointing
