/-
# OpsAssist.Repointing.Edits -- the edits re-pointing makes

Markers are rewritten (`renamed`), brackets are put behind the last marker
(`behindLast_shape`), and repeated references are taken out (`collapse`).  Each of them is
a chain of single edits (`Edit`); what a single edit keeps, re-pointing keeps.
-/
import OpsAssist.Repointing.Markers

namespace OpsAssist.Repointing

set_option autoImplicit false

open Theory Theory.Pattern Theory.Text

/-! ## Repeated references -/

def Blanks (text : List Char) : Prop := ∀ c ∈ text, isSpace c = true

def SourceWord (text : List Char) : Prop :=
  text = ['s', 'o', 'u', 'r', 'c', 'e', ' '] ∨ text = ['s', 'o', 'u', 'r', 'c', 'e', 's', ' ']

/-- What stands between two references of a list. -/
inductive Listed : List Char → Prop where
  | comma {b : List Char} : Blanks b → Listed (',' :: b)
  | commaAnd {b b' : List Char} : Blanks b → Blanks b' → b' ≠ [] →
      Listed (',' :: (b ++ ('a' :: 'n' :: 'd' :: b')))
  | and {b b' : List Char} : Blanks b → b ≠ [] → Blanks b' → b' ≠ [] →
      Listed (b ++ ('a' :: 'n' :: 'd' :: b'))

/-- What makes a reference a repetition of the one before it: blanks between the two, or,
where the first is a "source [k]", a list that goes on. -/
def Joins (pre gap : List Char) : Prop :=
  Blanks gap ∨ ∃ front word sep again, SourceWord word ∧ pre = front ++ word ∧
    Listed sep ∧ (again = [] ∨ SourceWord again) ∧ gap = sep ++ again

/-- A repeated reference is taken out; the first stays. -/
inductive Collapses : List Char → List Char → Prop where
  | repeated {pre ds gap post : List Char} : Digits ds → Joins pre gap →
      Collapses (pre ++ (bracket ds ++ (gap ++ (bracket ds ++ post))))
        (pre ++ (bracket ds ++ post))

/-- The last line of `_repoint_sentence`. -/
def collapse (text : List Char) : List Char :=
  REPEATED_MARKER.sub (·.group 1) (REPEATED_SOURCE.sub (·.group 1) text)

theorem Joins.before {pre gap : List Char} (joins : Joins pre gap) (front : List Char) :
    Joins (front ++ pre) gap := by
  rcases joins with blanks | ⟨f, word, sep, again, isWord, rfl, listed, more, rfl⟩
  · exact .inl blanks
  · exact .inr ⟨front ++ f, word, sep, again, isWord, (List.append_assoc _ _ _).symm, listed,
      more, rfl⟩

theorem Collapses.around {x y : List Char} (step : Collapses x y) (front back : List Char) :
    Collapses (front ++ (x ++ back)) (front ++ (y ++ back)) := by
  obtain ⟨digits, joins⟩ := step
  rename_i pre ds gap post
  have wider := @Collapses.repeated (front ++ pre) ds gap (post ++ back) digits
    (joins.before front)
  simpa using wider

theorem ne_of_blank {c d : Char} (blank : isSpace c = true) (solid : isSpace d = false) :
    c ≠ d := by
  rintro rfl
  cases blank.symm.trans solid

theorem Joins.free {pre gap : List Char} (joins : Joins pre gap) : '[' ∉ gap := by
  have clear : ∀ {b : List Char}, Blanks b → '[' ∉ b := fun blanks mem =>
    ne_of_blank (blanks _ mem) (d := '[') (by decide) rfl
  have word : ∀ {w : List Char}, SourceWord w → '[' ∉ w := by
    rintro w (rfl | rfl) <;> decide
  rcases joins with blanks | ⟨-, -, sep, again, -, -, listed, more, rfl⟩
  · exact clear blanks
  · have behind : '[' ∉ again := by
      rcases more with rfl | isWord
      · exact List.not_mem_nil
      · exact word isWord
    have front : '[' ∉ sep := by
      cases listed with
      | comma blanks => simp [clear blanks]
      | commaAnd blanks blanks' _ => simp [clear blanks, clear blanks']
      | and blanks _ blanks' _ => simp [clear blanks, clear blanks']
    simp [front, behind]

/-! ## The repetitions the patterns find -/

theorem mem_run_blanks {least : Nat} {s t : Place} (mem : t ∈ (rep least none space).run s) :
    ∃ b, s.rest = b ++ t.rest ∧ Blanks b ∧ least ≤ b.length ∧ t.groups = s.groups := by
  obtain ⟨b, shape, blanks, enough, -, groups⟩ := mem_run_rep_set mem
  exact ⟨b, shape, blanks, enough, groups⟩

/-- One or two digits, captured. -/
theorem mem_run_digits {s t : Place} (mem : t ∈ (group 2 upToTwoDigits).run s) :
    ∃ ds, Digits ds ∧ s.rest = ds ++ t.rest ∧ t.groups = (2, ds) :: s.groups := by
  obtain ⟨u, inside, rest, captured⟩ := mem_run_group mem
  obtain ⟨ds, shape, all, enough, atMost, groups⟩ := mem_run_rep_set inside
  refine ⟨ds, ⟨?_, all⟩, by rw [rest, shape], by rw [captured ds shape, groups]⟩
  have bound := atMost 2 rfl
  omega

/-- A marker, its digits captured. -/
theorem mem_run_reference {s t : Place}
    (mem : t ∈ (all [char '[', group 2 upToTwoDigits, char ']']).run s) :
    ∃ ds, Digits ds ∧ s.rest = bracket ds ++ t.rest ∧ t.groups = (2, ds) :: s.groups := by
  obtain ⟨u, opens, mem⟩ := mem_run_all_cons.mp mem
  obtain ⟨v, digits, mem⟩ := mem_run_all_cons.mp mem
  obtain ⟨w, closes, mem⟩ := mem_run_all_cons.mp mem
  obtain rfl := mem_run_all_nil.mp mem
  obtain ⟨first, groups⟩ := mem_run_char opens
  obtain ⟨ds, isDigits, second, groups'⟩ := mem_run_digits digits
  obtain ⟨third, groups''⟩ := mem_run_char closes
  refine ⟨ds, isDigits, ?_, by rw [groups'', groups', groups]⟩
  rw [first, second, third, bracket_append]
  rfl

/-- The captured digits in brackets once more. -/
theorem mem_run_repeated {ds : List Char} {s t : Place} (known : s.groups.lookup 2 = some ds)
    (mem : t ∈ (all [char '[', again 2, char ']']).run s) :
    s.rest = bracket ds ++ t.rest ∧ t.groups = s.groups := by
  obtain ⟨u, opens, mem⟩ := mem_run_all_cons.mp mem
  obtain ⟨v, more, mem⟩ := mem_run_all_cons.mp mem
  obtain ⟨w, closes, mem⟩ := mem_run_all_cons.mp mem
  obtain rfl := mem_run_all_nil.mp mem
  obtain ⟨first, groups⟩ := mem_run_char opens
  obtain ⟨text, captured, second, groups'⟩ := mem_run_again more
  obtain ⟨third, groups''⟩ := mem_run_char closes
  rw [groups, known] at captured
  cases captured
  refine ⟨?_, by rw [groups'', groups', groups]⟩
  rw [first, second, third, bracket_append]
  rfl

/-- The rounds of a repetition, each a gap and the captured digits in brackets. -/
theorem gaps_of_rounds {body : Pattern} {ds : List Char} {fits : List Char → Prop}
    (round : ∀ u v, v ∈ body.run u → u.groups.lookup 2 = some ds →
      ∃ gap, fits gap ∧ u.rest = gap ++ (bracket ds ++ v.rest) ∧ v.groups = u.groups)
    {s t : Place} (known : s.groups.lookup 2 = some ds) (mem : t ∈ (plus body).run s) :
    ∃ gaps : List (List Char), (∀ gap ∈ gaps, fits gap) ∧
      s.rest = gaps.flatMap (fun gap => gap ++ bracket ds) ++ t.rest ∧ t.groups = s.groups := by
  have chain := mem_run_rep mem
  clear mem
  induction chain with
  | refl => exact ⟨[], nofun, rfl, rfl⟩
  | tail _ last ih =>
      obtain ⟨gaps, each, shape, groups⟩ := ih
      obtain ⟨gap, isGap, shape', groups'⟩ := round _ _ last (by rw [groups, known])
      refine ⟨gaps ++ [gap], ?_, ?_, groups'.trans groups⟩
      · intro other there
        rcases List.mem_append.mp there with old | new
        · exact each other old
        · rw [List.mem_singleton.mp new]
          exact isGap
      · rw [shape, shape']
        simp

theorem collapses_gaps {pre ds : List Char} (digits : Digits ds) :
    ∀ {gaps : List (List Char)}, (∀ gap ∈ gaps, Joins pre gap) →
      Relation.ReflTransGen Collapses
        (pre ++ (bracket ds ++ gaps.flatMap fun gap => gap ++ bracket ds)) (pre ++ bracket ds)
  | [], _ => by
      rw [List.flatMap_nil, List.append_nil]
  | gap :: gaps, each => by
      have later := collapses_gaps digits fun g mem => each g (List.mem_cons_of_mem gap mem)
      have first := @Collapses.repeated pre ds gap (gaps.flatMap fun gap => gap ++ bracket ds)
        digits (each gap List.mem_cons_self)
      rw [List.flatMap_cons, List.append_assoc gap]
      exact .head first later

/-- What a match of a repetition comes to when its first reference stays. -/
theorem collapses_match {head body : Pattern} {s : Place} {m : Match}
    (first : ∀ u ∈ (group 1 head).run s, ∃ pre ds, Digits ds ∧
      s.rest = pre ++ bracket ds ++ u.rest ∧ u.groups.lookup 1 = some (pre ++ bracket ds) ∧
      u.groups.lookup 2 = some ds ∧
      ∀ v w, w ∈ body.run v → v.groups.lookup 2 = some ds →
        ∃ gap, Joins pre gap ∧ v.rest = gap ++ (bracket ds ++ w.rest) ∧ w.groups = v.groups)
    (matched : (all [group 1 head, plus body]).matchAt s = some m) :
    Relation.ReflTransGen Collapses m.text (m.group 1) := by
  obtain ⟨t, mem, rfl⟩ := matchAt_mem matched
  have whole := Place.read_append (run_suffix _ s t mem)
  obtain ⟨u, opens, mem⟩ := mem_run_all_cons.mp mem
  obtain ⟨v, rounds, mem⟩ := mem_run_all_cons.mp mem
  obtain rfl := mem_run_all_nil.mp mem
  obtain ⟨pre, ds, digits, shape, one, two, round⟩ := first u opens
  obtain ⟨gaps, each, shape', groups⟩ := gaps_of_rounds round two rounds
  have read : s.read t = pre ++ (bracket ds ++ gaps.flatMap fun gap => gap ++ bracket ds) := by
    rw [shape, shape'] at whole
    have sides : s.read t ++ t.rest =
        (pre ++ (bracket ds ++ gaps.flatMap fun gap => gap ++ bracket ds)) ++ t.rest := by
      rw [whole]
      simp
    exact List.append_cancel_right sides
  have captured : Match.group { text := s.read t, groups := t.groups } 1 = pre ++ bracket ds := by
    rw [Match.group, groups, one]
    rfl
  rw [captured, read]
  exact collapses_gaps digits each

theorem collapses_marker {s : Place} {m : Match} (matched : REPEATED_MARKER.matchAt s = some m) :
    Relation.ReflTransGen Collapses m.text (m.group 1) := by
  refine collapses_match (fun u mem => ?_) matched
  obtain ⟨v, inside, rest, captured⟩ := mem_run_group mem
  obtain ⟨ds, digits, shape, groups⟩ := mem_run_reference inside
  have known := captured (bracket ds) shape
  rw [groups] at known
  refine ⟨[], ds, digits, by rw [rest, shape]; rfl, by rw [known]; rfl, by rw [known]; rfl, ?_⟩
  intro v w round again
  obtain ⟨x, blanks, round⟩ := mem_run_all_cons.mp round
  obtain ⟨b, between, blank, -, same⟩ := mem_run_blanks blanks
  obtain ⟨shape', groups'⟩ := mem_run_repeated (by rw [same, again]) round
  exact ⟨b, .inl blank, by rw [between, shape'], groups'.trans same⟩

/-- "source " or "sources ". -/
theorem mem_run_source {s t : Place}
    (mem : t ∈ (all [literal "source", opt (char 's'), char ' ']).run s) :
    ∃ word, SourceWord word ∧ s.rest = word ++ t.rest ∧ t.groups = s.groups := by
  obtain ⟨u, stem, mem⟩ := mem_run_all_cons.mp mem
  obtain ⟨v, plural, mem⟩ := mem_run_all_cons.mp mem
  obtain ⟨w, blank, mem⟩ := mem_run_all_cons.mp mem
  obtain rfl := mem_run_all_nil.mp mem
  obtain ⟨first, groups⟩ := mem_run_literal stem
  obtain ⟨third, groups''⟩ := mem_run_char blank
  rcases mem_run_opt plural with rfl | more
  · exact ⟨_, .inl rfl, by rw [first, third]; rfl, by rw [groups'', groups]⟩
  · obtain ⟨second, groups'⟩ := mem_run_char more
    exact ⟨_, .inr rfl, by rw [first, second, third]; rfl, by rw [groups'', groups', groups]⟩

/-- The separators of `REPEATED_SOURCE`. -/
theorem mem_run_listed {s t : Place} (mem : t ∈ (alt
      (all [char ',', star space, opt (all [literal "and", .plus space])])
      (all [.plus space, literal "and", .plus space])).run s) :
    ∃ sep, Listed sep ∧ s.rest = sep ++ t.rest ∧ t.groups = s.groups := by
  rcases mem_run_alt.mp mem with comma | spelt
  · obtain ⟨u, first, mem⟩ := mem_run_all_cons.mp comma
    obtain ⟨v, blanks, mem⟩ := mem_run_all_cons.mp mem
    obtain ⟨w, more, mem⟩ := mem_run_all_cons.mp mem
    obtain rfl := mem_run_all_nil.mp mem
    obtain ⟨shape, groups⟩ := mem_run_char first
    obtain ⟨b, shape', blank, -, groups'⟩ := mem_run_blanks blanks
    rcases mem_run_opt more with rfl | joined
    · exact ⟨_, .comma blank, by rw [shape, shape']; rfl, groups'.trans groups⟩
    · obtain ⟨x, stem, mem⟩ := mem_run_all_cons.mp joined
      obtain ⟨y, blanks', mem⟩ := mem_run_all_cons.mp mem
      obtain rfl := mem_run_all_nil.mp mem
      obtain ⟨word, same⟩ := mem_run_literal stem
      obtain ⟨b', shape'', blank', enough, same'⟩ := mem_run_blanks blanks'
      refine ⟨_, .commaAnd blank blank' (List.ne_nil_of_length_pos enough), ?_, ?_⟩
      · rw [shape, shape', word, shape'']
        simp
      · rw [same', same, groups', groups]
  · obtain ⟨u, blanks, mem⟩ := mem_run_all_cons.mp spelt
    obtain ⟨v, stem, mem⟩ := mem_run_all_cons.mp mem
    obtain ⟨w, blanks', mem⟩ := mem_run_all_cons.mp mem
    obtain rfl := mem_run_all_nil.mp mem
    obtain ⟨b, shape, blank, enough, groups⟩ := mem_run_blanks blanks
    obtain ⟨word, same⟩ := mem_run_literal stem
    obtain ⟨b', shape', blank', enough', groups'⟩ := mem_run_blanks blanks'
    refine ⟨_, .and blank (List.ne_nil_of_length_pos enough) blank'
      (List.ne_nil_of_length_pos enough'), ?_, ?_⟩
    · rw [shape, word, shape']
      simp
    · rw [groups', same, groups]

theorem collapses_source {s : Place} {m : Match} (matched : REPEATED_SOURCE.matchAt s = some m) :
    Relation.ReflTransGen Collapses m.text (m.group 1) := by
  rw [REPEATED_SOURCE] at matched
  refine collapses_match (fun u mem => ?_) matched
  obtain ⟨v, inside, rest, captured⟩ := mem_run_group mem
  obtain ⟨x, named, inside⟩ := mem_run_all_cons.mp inside
  obtain ⟨word, isWord, front, same⟩ := mem_run_source named
  obtain ⟨ds, digits, shape, groups⟩ := mem_run_reference inside
  have whole : s.rest = (word ++ bracket ds) ++ v.rest := by
    rw [front, shape, List.append_assoc]
  have known := captured (word ++ bracket ds) whole
  rw [groups] at known
  refine ⟨word, ds, digits, by rw [rest, whole], by rw [known]; rfl, by rw [known]; rfl, ?_⟩
  intro v w round again
  obtain ⟨x, listed, behind⟩ := mem_run_all_cons.mp round
  obtain ⟨y, more, bracketed⟩ := mem_run_all_cons.mp behind
  obtain ⟨sep, isListed, between, kept⟩ := mem_run_listed listed
  rcases mem_run_opt more with rfl | once
  · obtain ⟨shape', groups'⟩ := mem_run_repeated (by rw [kept, again]) bracketed
    exact ⟨sep, .inr ⟨[], word, sep, [], isWord, rfl, isListed, .inl rfl, (List.append_nil _).symm⟩,
      by rw [between, shape'], groups'.trans kept⟩
  · obtain ⟨word', isWord', front', kept'⟩ := mem_run_source once
    obtain ⟨shape', groups'⟩ := mem_run_repeated (by rw [kept', kept, again]) bracketed
    exact ⟨sep ++ word', .inr ⟨[], word, sep, word', isWord, rfl, isListed, .inr isWord', rfl⟩,
      by rw [between, front', shape', List.append_assoc], by rw [groups', kept', kept]⟩

theorem collapses_chain_around {x y : List Char} (chain : Relation.ReflTransGen Collapses x y)
    (front back : List Char) :
    Relation.ReflTransGen Collapses (front ++ (x ++ back)) (front ++ (y ++ back)) :=
  chain.lift (fun text => front ++ (text ++ back)) fun _ _ step => step.around front back

/-- **Collapsing only takes repeated references out.** -/
theorem collapses_collapse (text : List Char) :
    Relation.ReflTransGen Collapses text (collapse text) := by
  have each : ∀ {p : Pattern}, (∀ prior rest m, p.matchAt { prior, rest } = some m →
      Relation.ReflTransGen Collapses m.text (m.group 1)) → ∀ text,
      Relation.ReflTransGen Collapses text (p.sub (·.group 1) text) := fun one =>
    @rewritten _ _ (Relation.ReflTransGen Collapses) (fun _ => .refl)
      (fun _ _ _ first second => first.trans second)
      (fun front _ _ back chain => collapses_chain_around chain front back) one
  exact (each (fun _ _ _ => collapses_source) text).trans
    (each (fun _ _ _ => collapses_marker) _)

/-! ## Rewritten markers -/

/-- A text with other digits in its markers. -/
def renamed (g : List Char → List Char) (text : List Char) : List Char :=
  MARKER.sub (fun m => bracket (g (m.group 1))) text

/-- The pieces a piece becomes. -/
def renamedPieces (g : List Char → List Char) : Piece → List Piece
  | .plain c => [.plain c]
  | .found m => bracketPieces (g (m.group 1))

theorem cut_renamed {g : List Char → List Char} (numeral : ∀ ds, Digits ds → Decimals (g ds))
    {text : List Char} {ps : List Piece} (cut : Cut text ps) :
    Cut (ps.flatMap (rewrite fun m => bracket (g (m.group 1)))) (ps.flatMap (renamedPieces g)) ∧
      Agree text (ps.flatMap (rewrite fun m => bracket (g (m.group 1)))) := by
  induction cut with
  | nil => exact ⟨.nil, .inl rfl⟩
  | @plain c rest ps missed _ ih =>
      obtain ⟨inner, same⟩ := ih
      refine ⟨.plain (markAt_agree c same missed) inner, ?_⟩
      have wider := same.around [c] []
      rwa [List.append_nil, List.append_nil] at wider
  | @found ds rest ps digits _ ih =>
      obtain ⟨inner, -⟩ := ih
      refine ⟨cut_bracket (numeral ds digits) inner, ?_⟩
      exact agree_bracket [] _ _

theorem pieces_renamed {g : List Char → List Char} (numeral : ∀ ds, Digits ds → Decimals (g ds))
    (text : List Char) :
    MARKER.pieces (renamed g text) = (MARKER.pieces text).flatMap (renamedPieces g) := by
  rw [renamed, sub_eq]
  exact pieces_of_cut (cut_renamed numeral (cut_pieces text)).1

/-- Markers stay where they were when one or two digits are put into each. -/
theorem markerNumbers_renamed {g : List Char → List Char}
    (numeral : ∀ ds, Digits ds → Digits (g ds)) (text : List Char) : ∃ dss : List (List Char), (∀ ds ∈ dss, Digits ds) ∧
      markerNumbers text = dss.map intOf ∧
      markerNumbers (renamed g text) = dss.map fun ds => intOf (g ds) := by
  have each : ∀ {text : List Char} {ps : List Piece}, Cut text ps →
      ∃ dss : List (List Char), (∀ ds ∈ dss, Digits ds) ∧
        (ps.filterMap matchOf).map (fun m => intOf (m.group 1)) = dss.map intOf ∧
        ((ps.flatMap (renamedPieces g)).filterMap matchOf).map (fun m => intOf (m.group 1)) =
          dss.map fun ds => intOf (g ds) := by
    intro text ps cut
    induction cut with
    | nil => exact ⟨[], nofun, rfl, rfl⟩
    | plain _ _ ih => exact ih
    | @found ds rest ps digits _ ih =>
        obtain ⟨dss, all, before, after⟩ := ih
        refine ⟨ds :: dss, ?_, ?_, ?_⟩
        · exact List.forall_mem_cons.mpr ⟨digits, all⟩
        · rw [List.map_cons, ← before]
          rfl
        · rw [List.map_cons, ← after, List.flatMap_cons, renamedPieces, group_markMatch,
            bracketPieces, if_pos (numeral ds digits)]
          rfl
  obtain ⟨dss, all, before, after⟩ := each (cut_pieces text)
  refine ⟨dss, all, by rw [markerNumbers_of, before], ?_⟩
  rw [markerNumbers_of, pieces_renamed (fun ds digits => (numeral ds digits).2), after]

/-- Every marker that becomes a bracket with more digits is one more stray bracket. -/
theorem strays_renamed {g : List Char → List Char} (numeral : ∀ ds, Digits ds → Decimals (g ds))
    (text : List Char) : strays text ≤ strays (renamed g text) ∧
      ∀ n ∈ markerNumbers text, (∀ ds, Digits ds → intOf ds = n → ¬ Digits (g ds)) →
        strays text < strays (renamed g text) := by
  have each : ∀ {text : List Char} {ps : List Piece}, Cut text ps →
      (ps.flatMap (rewrite fun _ => [' '])).count '[' ≤
        ((ps.flatMap (renamedPieces g)).flatMap (rewrite fun _ => [' '])).count '[' ∧
      ∀ n ∈ (ps.filterMap matchOf).map (fun m => intOf (m.group 1)),
        (∀ ds, Digits ds → intOf ds = n → ¬ Digits (g ds)) →
        (ps.flatMap (rewrite fun _ => [' '])).count '[' <
          ((ps.flatMap (renamedPieces g)).flatMap (rewrite fun _ => [' '])).count '[' := by
    intro text ps cut
    induction cut with
    | nil => exact ⟨Nat.le_refl _, nofun⟩
    | @plain c rest ps _ _ ih =>
        simp only [List.flatMap_cons, renamedPieces, List.flatMap_append, List.flatMap_nil,
          rewrite, List.append_nil, List.count_append]
        refine ⟨by have := ih.1; omega, fun n mem long => ?_⟩
        have := ih.2 n mem long
        omega
    | @found ds rest ps digits _ ih =>
        have here : 0 ≤ ((bracketPieces (g ds)).flatMap (rewrite fun _ => [' '])).count '[' ∧
            (¬ Digits (g ds) →
              1 ≤ ((bracketPieces (g ds)).flatMap (rewrite fun _ => [' '])).count '[') := by
          refine ⟨Nat.zero_le _, fun long => ?_⟩
          rw [bracketPieces, if_neg long, flatMap_plain, bracket, List.cons_append,
            List.count_cons_self]
          omega
        have blank : List.count '[' [' '] = 0 := by decide
        simp only [List.flatMap_cons, renamedPieces, List.flatMap_append, group_markMatch,
          rewrite, List.count_append, blank]
        refine ⟨by have := ih.1; omega, fun n mem long => ?_⟩
        rcases List.mem_cons.mp mem with same | later
        · have := here.2 (long ds digits same.symm)
          have := ih.1
          omega
        · have := ih.2 n later long
          omega
  have whole := each (cut_pieces text)
  rw [← blanked_eq, ← pieces_renamed numeral, ← blanked_eq, ← markerNumbers_of] at whole
  exact whole

/-! ## Behind the last marker -/

/-- Brackets are put behind a marker, if there is one. -/
theorem behindLast_shape (extra : List Char) {text : List Char} {ps : List Piece}
    (cut : Cut text ps) :
    (behindLast extra ps = none ∧ ps.filterMap matchOf = []) ∨
      ∃ pre ds post, Digits ds ∧ text = pre ++ (bracket ds ++ post) ∧
        behindLast extra ps = some (pre ++ (bracket ds ++ (extra ++ post))) := by
  induction cut with
  | nil => exact .inl ⟨rfl, rfl⟩
  | @plain c rest ps _ _ ih =>
      rcases ih with ⟨none, nothing⟩ | ⟨pre, ds, post, digits, rfl, put⟩
      · exact .inl ⟨by rw [behindLast, none]; rfl, nothing⟩
      · exact .inr ⟨c :: pre, ds, post, digits, rfl, by rw [behindLast, put]; rfl⟩
  | @found ds rest ps digits inner ih =>
      rcases ih with ⟨none, -⟩ | ⟨pre, ds', post, digits', rfl, put⟩
      · refine .inr ⟨[], ds, rest, digits, (bracket_append ds rest).symm, ?_⟩
        rw [behindLast, none, text_of_cut inner]
        rfl
      · refine .inr ⟨bracket ds ++ pre, ds', post, digits', ?_, ?_⟩
        · rw [List.append_assoc, bracket_append ds]
        · rw [behindLast, put, Option.getD_some, List.append_assoc]
          rfl

/-! ## Single edits -/

/-- One edit: other digits in a marker, a bracket behind a marker, or a repeated reference
taken out. -/
inductive Edit (fits : List Char → Prop) : List Char → List Char → Prop where
  | replaced {pre ds ds' post : List Char} : Digits ds → fits ds' →
      Edit fits (pre ++ (bracket ds ++ post)) (pre ++ (bracket ds' ++ post))
  | added {pre ds ds' post : List Char} : Digits ds → fits ds' →
      Edit fits (pre ++ (bracket ds ++ post)) (pre ++ (bracket ds ++ (bracket ds' ++ post)))
  | collapsed {x y : List Char} : Collapses x y → Edit fits x y

abbrev Edits (fits : List Char → Prop) := Relation.ReflTransGen (Edit fits)

theorem Edit.around {fits : List Char → Prop} {x y : List Char} (step : Edit fits x y)
    (front back : List Char) : Edit fits (front ++ (x ++ back)) (front ++ (y ++ back)) := by
  cases step with
  | @replaced pre ds ds' post digits fit =>
      have wider := @Edit.replaced fits (front ++ pre) ds ds' (post ++ back) digits fit
      simpa using wider
  | @added pre ds ds' post digits fit =>
      have wider := @Edit.added fits (front ++ pre) ds ds' (post ++ back) digits fit
      simpa using wider
  | collapsed step => exact .collapsed (step.around front back)

theorem edits_renamed {fits : List Char → Prop} {g : List Char → List Char}
    (fit : ∀ ds, Digits ds → fits (g ds)) (text : List Char) :
    Edits fits text (renamed g text) := by
  refine @rewritten _ _ (Edits fits) (fun _ => .refl) (fun _ _ _ one other => one.trans other)
    (fun front _ _ back chain =>
      chain.lift (fun text => front ++ (text ++ back)) fun _ _ step => step.around front back)
    (fun prior rest m matched => ?_) text
  rw [matchAt_marker] at matched
  obtain ⟨mark, opens, rfl⟩ := Option.map_eq_some_iff.mp matched
  obtain ⟨digits, -⟩ := @markAt_eq_some rest mark.1 mark.2 opens
  have step := @Edit.replaced fits [] mark.1 (g mark.1) [] digits (fit mark.1 digits)
  rw [List.append_nil, List.append_nil] at step
  exact .single step

/-- Brackets put behind a marker one by one, the last of them first. -/
theorem edits_added {fits : List Char → Prop} {pre ds post : List Char} (digits : Digits ds) :
    ∀ {dss : List (List Char)}, (∀ ds' ∈ dss, fits ds') →
      Edits fits (pre ++ (bracket ds ++ post))
        (pre ++ (bracket ds ++ (dss.flatMap bracket ++ post)))
  | [], _ => .refl
  | ds' :: dss, fit => by
      have later := @edits_added fits pre ds post digits dss fun d mem =>
        fit d (List.mem_cons_of_mem ds' mem)
      have last := @Edit.added fits pre ds ds' (dss.flatMap bracket ++ post) digits
        (fit ds' List.mem_cons_self)
      rw [List.flatMap_cons, List.append_assoc (bracket ds')]
      exact later.tail last

theorem edits_collapse (fits : List Char → Prop) (text : List Char) :
    Edits fits text (collapse text) :=
  (collapses_collapse text).lift id fun _ _ step => .collapsed step

end OpsAssist.Repointing
