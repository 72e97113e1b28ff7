/-
# OpsAssist.Repointing.Sentences -- one sentence re-pointed

`Repaired` says what becomes of a sentence that states a figure it credits to the wrong
sources, and `repaired_iff` when it does: when the sources the greedy cover credits can be
written as markers.  A source numbered 100 or more cannot, and its bracket is one more
stray bracket in the text.
-/
import OpsAssist.Repointing.Figures
import OpsAssist.Theory.Like

namespace OpsAssist.Repointing

set_option autoImplicit false

open Theory Theory.Pattern Theory.Text

/-! ## The greedy cover -/

theorem foldl_best (has : Nat → Nat) : ∀ (ks : List Nat) (start : Nat),
    let best := ks.foldl (fun best k => if has best < has k then k else best) start
    (best = start ∨ best ∈ ks) ∧ has start ≤ has best ∧ ∀ k ∈ ks, has k ≤ has best
  | [], start => ⟨.inl rfl, Nat.le_refl _, nofun⟩
  | k :: ks, start => by
      rw [List.foldl_cons]
      by_cases better : has start < has k
      · rw [if_pos better]
        obtain ⟨place, from_k, each⟩ := foldl_best has ks k
        refine ⟨.inr ?_, by omega, List.forall_mem_cons.mpr ⟨from_k, each⟩⟩
        rcases place with here | later
        · rw [here]
          exact List.mem_cons_self
        · exact List.mem_cons_of_mem _ later
      · rw [if_neg better]
        obtain ⟨place, from_start, each⟩ := foldl_best has ks start
        refine ⟨place.imp id (List.mem_cons_of_mem k), from_start, ?_⟩
        exact List.forall_mem_cons.mpr ⟨by omega, each⟩

/-- The figures still missing that a source has. -/
def found (sources : List Figures) (missing : Figures) (k : Nat) : Figures :=
  (heldBy sources k).filter (· ∈ missing)

theorem le_bestSource {sources : List Figures} {missing : Figures} {k : Nat}
    (one : 1 ≤ k) (bound : k ≤ sources.length) :
    (found sources missing k).length ≤
      (found sources missing (bestSource sources missing)).length :=
  (foldl_best (fun k => (found sources missing k).length) _ 1).2.2 k
    (List.mem_range'_1.mpr ⟨one, by omega⟩)

theorem bestSource_pos (sources : List Figures) (missing : Figures) :
    1 ≤ bestSource sources missing := by
  rcases (foldl_best (fun k => (found sources missing k).length)
    (List.range' 1 sources.length) 1).1 with first | later
  · exact Nat.le_of_eq first.symm
  · exact (List.mem_range'_1.mp later).1

theorem heldBy_bound {sources : List Figures} {f : List Char} {k : Nat}
    (has : f ∈ heldBy sources k) (one : 1 ≤ k) : k ≤ sources.length := by
  rw [heldBy] at has
  cases there : sources[k - 1]? with
  | none =>
      rw [there] at has
      cases has
  | some h =>
      obtain ⟨bound, -⟩ := List.getElem?_eq_some_iff.mp there
      omega

theorem mem_found {sources : List Figures} {missing : Figures} {k : Nat} {f : List Char} :
    f ∈ found sources missing k ↔ f ∈ heldBy sources k ∧ f ∈ missing := by
  rw [found, List.mem_filter, decide_eq_true_iff]

/-- A figure some source has is one of a source with a number. -/
theorem heldBy_of_mem {sources : List Figures} {f : List Char} (has : ∃ h ∈ sources, f ∈ h) :
    ∃ k, 1 ≤ k ∧ k ≤ sources.length ∧ f ∈ heldBy sources k := by
  obtain ⟨h, mem, inside⟩ := has
  obtain ⟨i, bound, rfl⟩ := List.mem_iff_getElem.mp mem
  refine ⟨i + 1, by omega, by omega, ?_⟩
  rw [heldBy, Nat.add_sub_cancel, List.getElem?_eq_getElem bound]
  exact inside

theorem replacementsFor_succ (sources : List Figures) (rounds : Nat) (missing : Figures) :
    replacementsFor sources (rounds + 1) missing =
      if missing = [] ∨ found sources missing (bestSource sources missing) = [] then []
      else bestSource sources missing :: replacementsFor sources rounds
        (missing.filter (· ∉ heldBy sources (bestSource sources missing))) := rfl

/-- Every source credited is provided and has a missing figure. -/
theorem replacementsFor_sound {sources : List Figures} {k : Nat} : ∀ {rounds : Nat}
    {missing : Figures}, k ∈ replacementsFor sources rounds missing →
      1 ≤ k ∧ k ≤ sources.length ∧ ∃ f ∈ missing, f ∈ heldBy sources k
  | 0, _, mem => by cases mem
  | rounds + 1, missing, mem => by
      rw [replacementsFor_succ] at mem
      by_cases stop : missing = [] ∨ found sources missing (bestSource sources missing) = []
      · rw [if_pos stop] at mem
        cases mem
      · rw [if_neg stop] at mem
        rcases List.mem_cons.mp mem with rfl | later
        · obtain ⟨f, inside⟩ := List.exists_mem_of_ne_nil _ fun none => stop (.inr none)
          obtain ⟨has, isMissing⟩ := mem_found.mp inside
          have one := bestSource_pos sources missing
          exact ⟨one, heldBy_bound has one, f, isMissing, has⟩
        · obtain ⟨one, bound, f, left, has⟩ := replacementsFor_sound later
          exact ⟨one, bound, f, (List.mem_filter.mp left).1, has⟩

/-- **Every missing figure some source has is one of a credited source.** -/
theorem replacementsFor_covers {sources : List Figures} {f : List Char} : ∀ {rounds : Nat}
    {missing : Figures}, missing.length ≤ rounds → f ∈ missing → (∃ h ∈ sources, f ∈ h) →
      ∃ k ∈ replacementsFor sources rounds missing, f ∈ heldBy sources k
  | 0, missing, enough, mem, _ => by
      rw [List.length_eq_zero_iff.mp (Nat.le_zero.mp enough)] at mem
      cases mem
  | rounds + 1, missing, enough, mem, has => by
      obtain ⟨k, one, bound, inside⟩ := heldBy_of_mem has
      have most := @le_bestSource sources missing k one bound
      have some_found := List.length_pos_of_mem (mem_found.mpr ⟨inside, mem⟩)
      have go : ¬(missing = [] ∨ found sources missing (bestSource sources missing) = []) := by
        rintro (none | none)
        · rw [none] at mem
          cases mem
        · rw [none, List.length_nil] at most
          omega
      rw [replacementsFor_succ, if_neg go]
      by_cases here : f ∈ heldBy sources (bestSource sources missing)
      · exact ⟨_, List.mem_cons_self, here⟩
      · let left := missing.filter (· ∉ heldBy sources (bestSource sources missing))
        have still : f ∈ left := List.mem_filter.mpr ⟨mem, decide_eq_true here⟩
        -- a figure that was found leaves the missing ones
        have shorter : left.length < missing.length := by
          obtain ⟨g, inBest⟩ := List.exists_mem_of_ne_nil _ fun none => go (.inr none)
          obtain ⟨held, isMissing⟩ := mem_found.mp inBest
          refine List.length_filter_lt_length_iff_exists.mpr ⟨g, isMissing, ?_⟩
          simp [held]
        obtain ⟨k, credited, holds⟩ :=
          @replacementsFor_covers sources f rounds left (by omega) still has
        exact ⟨k, List.mem_cons_of_mem _ credited, holds⟩

/-! ## Numbers in brackets -/

/-- The digits of a number. -/
def digitsOf (n : Nat) : List Char := (toString n).toList

theorem marker_eq (n : Nat) : marker n = bracket (digitsOf n) := rfl

theorem digitsOf_eq (n : Nat) : digitsOf n = Nat.toDigits 10 n := String.toList_ofList

theorem decimal_of_isDigit {c : Char} (digit : c.isDigit = true) :
    decimal c = some (c.toNat - 48) := by
  have range : 48 ≤ c.toNat ∧ c.toNat ≤ 57 := by
    simpa [Char.isDigit, UInt32.le_iff_toNat_le] using digit
  have fits : (decide (48 ≤ c.toNat) && decide (c.toNat < 48 + 10)) = true := by
    simp only [Bool.and_eq_true, decide_eq_true_eq]
    omega
  have first : ∀ rest : List Nat, (48 :: rest).find? (fun base => base ≤ c.toNat &&
      c.toNat < base + 10) = some 48 := fun rest => List.find?_cons_of_pos fits
  have known : zeros.find? (fun base => base ≤ c.toNat && c.toNat < base + 10) = some 48 := first _
  rw [decimal, known]
  rfl

theorem decimals_digitsOf (n : Nat) : Decimals (digitsOf n) := by
  intro d mem
  rw [digitsOf_eq] at mem
  rw [isDecimal, decimal_of_isDigit (Numeral.isDigit_of_mem_decimal mem)]
  rfl

theorem intOf_digitsOf (n : Nat) : intOf (digitsOf n) = n := by
  have digits : ∀ (ds : List Char) (start : Nat), (∀ d ∈ ds, d.isDigit = true) →
      ds.foldl (fun n c => 10 * n + (decimal c).getD 0) start = Nat.ofDigitChars 10 ds start := by
    intro ds
    induction ds with
    | nil => intros; rfl
    | cons d ds ih =>
        intro start each
        rw [List.foldl_cons, Nat.ofDigitChars_cons, ih _ fun c mem =>
          each c (List.mem_cons_of_mem d mem), decimal_of_isDigit (each d List.mem_cons_self)]
        rfl
  rw [intOf, digitsOf_eq,
    digits (Nat.toDigits 10 n) 0 fun d mem => Numeral.isDigit_of_mem_decimal mem]
  exact Nat.ofDigitChars_ten_toDigits

/-- A number is a marker's when it is below 100. -/
theorem digits_digitsOf {n : Nat} : Digits (digitsOf n) ↔ n < 100 := by
  have length := @Nat.length_toDigits_le_iff 10 n 2 (by decide) (by decide)
  have some_digit : 0 < (Nat.toDigits 10 n).length := Nat.length_toDigits_pos
  have all : ∀ d ∈ digitsOf n, isDecimal d = true := decimals_digitsOf n
  rw [Digits, and_iff_left all, digitsOf_eq]
  omega

/-- A marker that stands in a text is one of its markers. -/
theorem cited_of_contains {n : Nat} (small : n < 100) {text : List Char}
    (there : contains (marker n) text = true) : n ∈ markerNumbers text := by
  obtain ⟨pre, post, rfl⟩ := contains_iff.mp there
  rw [marker_eq, markerNumbers_mark (digits_digitsOf.mpr small), intOf_digitsOf]
  simp

/-- What a text begins with, blanks for markers put in, it begins with. -/
theorem front_of_blanked {text : List Char} {ps : List Piece} (cut : Cut text ps) :
    ∀ {front behind : List Char}, ' ' ∉ front →
      ps.flatMap (rewrite fun _ => [' ']) = front ++ behind → ∃ post, text = front ++ post := by
  induction cut with
  | nil =>
      intro front behind _ shape
      have none := (List.append_eq_nil_iff.mp shape.symm).1
      exact ⟨[], by rw [none]; rfl⟩
  | @plain c rest ps _ _ ih =>
      intro front behind solid shape
      cases front with
      | nil => exact ⟨c :: rest, rfl⟩
      | cons d front =>
          obtain ⟨rfl, later⟩ := List.cons.inj shape
          obtain ⟨post, rfl⟩ := ih (fun mem => solid (List.mem_cons_of_mem _ mem)) later
          exact ⟨post, rfl⟩
  | @found ds rest ps _ _ _ =>
      intro front behind solid shape
      cases front with
      | nil => exact ⟨_, rfl⟩
      | cons d front =>
          obtain ⟨rfl, -⟩ := List.cons.inj shape
          exact absurd List.mem_cons_self solid

/-- A bracket with digits that is no marker stands in a text where it stands in the text
with blanks for markers. -/
theorem contains_blanked {ds : List Char} (numeral : Decimals ds) (long : ¬ Digits ds)
    (text : List Char) :
    contains (bracket ds) (blanked text) = true ↔ contains (bracket ds) text = true := by
  have solid : ' ' ∉ bracket ds := by
    intro mem
    rcases List.mem_append.mp mem with front | closes
    · rcases List.mem_cons.mp front with same | digit
      · revert same; decide
      · cases (isSpace_of_isDecimal (numeral _ digit)).symm.trans rfl
    · revert closes; decide
  constructor
  · have each : ∀ {text : List Char} {ps : List Piece}, Cut text ps →
        contains (bracket ds) (ps.flatMap (rewrite fun _ => [' '])) = true →
        contains (bracket ds) text = true := by
      intro text ps cut
      induction cut with
      | nil => exact id
      | @plain c rest ps missed inner ih =>
          intro there
          rw [List.flatMap_cons, rewrite, List.singleton_append, contains, Bool.or_eq_true] at there
          rw [contains, Bool.or_eq_true]
          refine there.imp (fun first => ?_) ih
          obtain ⟨behind, shape⟩ := List.isPrefixOf_iff_prefix.mp first
          obtain ⟨post, whole⟩ := @front_of_blanked (c :: rest) _ (.plain missed inner)
            (bracket ds) behind solid shape.symm
          exact List.isPrefixOf_iff_prefix.mpr ⟨post, whole.symm⟩
      | @found ds' rest ps _ _ ih =>
          intro there
          rw [List.flatMap_cons, rewrite, List.singleton_append, contains, Bool.or_eq_true] at there
          rcases there with first | later
          · rw [bracket] at first
            cases first
          · obtain ⟨pre, post, rfl⟩ := contains_iff.mp (ih later)
            exact contains_iff.mpr ⟨'[' :: ds' ++ ']' :: pre, post, by simp⟩
    rw [blanked_eq]
    exact each (cut_pieces text)
  · intro there
    obtain ⟨pre, post, rfl⟩ := contains_iff.mp there
    rw [blanked_bracket numeral, if_neg long]
    exact contains_iff.mpr ⟨_, _, rfl⟩

/-! ## Words outside markers -/

def wordsOutside (text : List Char) : List (List Char) := words (blanked text)

theorem flatten_words : ∀ text : List Char,
    (words text).flatten = text.filter fun c => !isSpace c
  | [] => rfl
  | c :: rest => by
      have later := flatten_words rest
      by_cases blank : isSpace c = true
      · rw [words_blank blank, later, List.filter_cons_of_neg (by simp [blank])]
      · rw [words, if_neg blank, List.filter_cons_of_pos (by simp [blank]), ← later]
        split
        · rfl
        · cases words rest <;> rfl

/-- Stray brackets are in the words outside markers. -/
theorem strays_eq (text : List Char) : strays text = (wordsOutside text).flatten.count '[' := by
  rw [strays, wordsOutside, flatten_words, List.count_filter (by decide)]

theorem strays_collapses {x y : List Char} (chain : Relation.ReflTransGen Collapses x y) :
    strays y = strays x := by
  induction chain with
  | refl => rfl
  | tail _ step ih =>
      rw [← ih]
      obtain ⟨digits, joins⟩ := step
      have none : ∀ gap : List Char, '[' ∉ gap → strays gap = 0 := fun gap free => by
        rw [strays, blanked_free free, List.count_eq_zero.mpr free]
      rw [strays_bracket digits.2, strays_bracket digits.2, strays_bracket digits.2,
        none _ joins.free, if_pos digits]
      omega

theorem mem_markerNumbers_collapses {x y : List Char} {n : Nat}
    (chain : Relation.ReflTransGen Collapses x y) :
    n ∈ markerNumbers y ↔ n ∈ markerNumbers x := by
  induction chain with
  | refl => rfl
  | tail _ step ih =>
      rw [← ih]
      obtain ⟨digits, joins⟩ := step
      rw [markerNumbers_mark digits, markerNumbers_mark digits, markerNumbers_mark digits,
        markerNumbers_free joins.free]
      simp

/-! ## The parts of a re-pointed sentence -/

/-- The provided sources a text cites. -/
def cites (sources : List Figures) (text : List Char) : List Nat :=
  (markerNumbers text).filter fun n => 1 ≤ n ∧ n ≤ sources.length

/-- The figures that some source has and no cited one. -/
def missingFrom (sources : List Figures) (stated : Figures) (cited : List Nat) : Figures :=
  stated.filter fun f => (∀ n ∈ cited, f ∉ heldBy sources n) ∧ ∃ h ∈ sources, f ∈ h

/-- The cited sources with none of the stated figures. -/
def deadOf (sources : List Figures) (stated : Figures) (cited : List Nat) : List Nat :=
  (cited.filter fun n => (heldBy sources n).filter (· ∈ stated) = []).eraseDups

/-- The sources the greedy cover credits. -/
def creditedFor (sources : List Figures) (missing : Figures) : List Nat :=
  replacementsFor sources missing.length missing

/-- The first credited source in the place of every dead one. -/
def replaceDead (dead credited : List Nat) (sentence : List Char) : Option (List Char) :=
  if dead = [] then some sentence
  else credited.head?.map fun first =>
    MARKER.sub (fun m => if intOf (m.group 1) ∈ dead then marker first else m.text) sentence

def addMarkers (added : List Nat) (sentence : List Char) : Option (List Char) :=
  if added = [] then some sentence
  else behindLast (added.flatMap marker) (MARKER.pieces sentence)

/-- The credited sources whose marker is not there yet. -/
def lacking (credited : List Nat) (sentence : List Char) : List Nat :=
  credited.filter fun k => !contains (marker k) sentence

/-- What is left to do once a figure is missing. -/
def rewriteSentence (dead credited : List Nat) (sentence : List Char) :
    Option (List Char × Nat) := do
  let replaced ← replaceDead dead credited sentence
  let whole ← addMarkers (lacking credited replaced) replaced
  return (collapse whole, dead.length + (lacking credited replaced).length)

theorem repointSentence_eq (host : Host) (word : Char → Bool) {sentence : List Char}
    {sources : List Figures} {stated : Figures}
    (known : figures host word sentence = some stated) :
    repointSentence host word sentence sources =
      if cites sources sentence = [] ∨ stated = [] then some (sentence, 0)
      else if missingFrom sources stated (cites sources sentence) = [] then some (sentence, 0)
      else rewriteSentence (deadOf sources stated (cites sources sentence))
        (creditedFor sources (missingFrom sources stated (cites sources sentence))) sentence := by
  unfold repointSentence
  rw [known]
  simp only [bind, Option.bind_some, pure]
  refine if_congr Iff.rfl rfl (if_congr Iff.rfl rfl ?_)
  change (if deadOf sources stated (cites sources sentence) = [] then _ else _) = _
  by_cases alive : deadOf sources stated (cites sources sentence) = []
  · rw [if_pos alive, rewriteSentence, replaceDead, if_pos alive]
    simp only [bind, Option.bind_some, pure, addMarkers]
    change (if lacking (creditedFor sources (missingFrom sources stated
      (cites sources sentence))) sentence = [] then _ else _) = _
    split <;> rfl
  · rw [if_neg alive, rewriteSentence, replaceDead, if_neg alive]
    simp only [bind, pure, addMarkers]
    congr 1
    funext replaced
    change (if lacking (creditedFor sources (missingFrom sources stated
      (cites sources sentence))) replaced = [] then _ else _) = _
    split <;> rfl

/-! ## Replacing dead sources -/

/-- The digits of a marker afterwards. -/
def revise (dead : List Nat) (first : Nat) (ds : List Char) : List Char :=
  if intOf ds ∈ dead then digitsOf first else ds

theorem replaceDead_eq {dead credited : List Nat} {sentence replaced : List Char} {first : Nat}
    (leads : credited.head? = some first) :
    replaceDead dead credited sentence = some replaced ↔
      replaced = renamed (revise dead first) sentence := by
  have each : ∀ m, Piece.found m ∈ MARKER.pieces sentence →
      (if intOf (m.group 1) ∈ dead then marker first else m.text) =
        bracket (revise dead first (m.group 1)) := by
    intro m mem
    obtain ⟨ds, -, rfl⟩ := found_of_cut (cut_pieces sentence) mem
    rw [group_markMatch, revise]
    split <;> rfl
  have same : MARKER.sub (fun m => if intOf (m.group 1) ∈ dead then marker first else m.text)
      sentence = renamed (revise dead first) sentence := by
    rw [renamed, sub_eq, sub_eq]
    refine List.flatMap_congr fun piece mem => ?_
    cases piece with
    | plain c => rfl
    | found m => exact each m mem
  rw [replaceDead, leads, Option.map_some, same]
  by_cases alive : dead = []
  · have kept : renamed (revise dead first) sentence = sentence := by
      rw [← same, sub_eq, alive]
      conv_rhs => rw [← text_of_cut (cut_pieces sentence)]
      refine List.flatMap_congr fun piece _ => ?_
      cases piece <;> simp [rewrite, Piece.text]
    rw [if_pos alive, kept, Option.some.injEq, eq_comm]
  · rw [if_neg alive, Option.some.injEq, eq_comm]

theorem revise_decimals (dead : List Nat) (first : Nat) :
    ∀ ds, Digits ds → Decimals (revise dead first ds) := by
  intro ds digits
  rw [revise]
  split
  · exact decimals_digitsOf first
  · exact digits.2

theorem revise_digits {dead : List Nat} {first : Nat} (small : dead ≠ [] → first < 100) :
    ∀ ds, Digits ds → Digits (revise dead first ds) := by
  intro ds digits
  rw [revise]
  by_cases isDead : intOf ds ∈ dead
  · rw [if_pos isDead]
    exact digits_digitsOf.mpr (small (List.ne_nil_of_mem isDead))
  · rw [if_neg isDead]
    exact digits

/-- The numbers after the dead sources are replaced. -/
theorem mem_markerNumbers_revised {dead : List Nat} {first : Nat} {sentence : List Char} {n : Nat}
    (small : dead ≠ [] → first < 100) :
    n ∈ markerNumbers (renamed (revise dead first) sentence) ↔
      (n ∈ markerNumbers sentence ∧ n ∉ dead) ∨
        (n = first ∧ ∃ d ∈ markerNumbers sentence, d ∈ dead) := by
  obtain ⟨dss, -, before, after⟩ := markerNumbers_renamed (revise_digits small) sentence
  rw [before, after]
  simp only [List.mem_map, exists_exists_and_eq_and]
  constructor
  · rintro ⟨ds, mem, rfl⟩
    rw [revise]
    by_cases isDead : intOf ds ∈ dead
    · rw [if_pos isDead, intOf_digitsOf]
      exact .inr ⟨rfl, ds, mem, isDead⟩
    · rw [if_neg isDead]
      exact .inl ⟨⟨ds, mem, rfl⟩, isDead⟩
  · rintro (⟨⟨ds, mem, rfl⟩, alive⟩ | ⟨rfl, ds, mem, isDead⟩)
    · exact ⟨ds, mem, by rw [revise, if_neg alive]⟩
    · exact ⟨ds, mem, by rw [revise, if_pos isDead, intOf_digitsOf]⟩

theorem blanked_revised {dead : List Nat} {first : Nat} (small : dead ≠ [] → first < 100)
    (sentence : List Char) : blanked (renamed (revise dead first) sentence) = blanked sentence := by
  have fits := revise_digits small
  rw [blanked_eq, blanked_eq, pieces_renamed (revise_decimals dead first), List.flatMap_assoc]
  refine List.flatMap_congr fun piece mem => ?_
  cases piece with
  | plain c => rfl
  | found m =>
      obtain ⟨ds, digits, rfl⟩ := found_of_cut (cut_pieces sentence) mem
      rw [renamedPieces, group_markMatch, bracketPieces, if_pos (fits ds digits)]
      rfl

/-! ## Adding markers -/

theorem addMarkers_cases {added : List Nat} {sentence whole : List Char}
    (done : addMarkers added sentence = some whole) :
    (added = [] ∧ whole = sentence) ∨ ∃ pre ds post, Digits ds ∧
      sentence = pre ++ (bracket ds ++ post) ∧
      whole = pre ++ (bracket ds ++ (added.flatMap marker ++ post)) := by
  rw [addMarkers] at done
  by_cases none : added = []
  · rw [if_pos none] at done
    exact .inl ⟨none, (Option.some.inj done).symm⟩
  · rw [if_neg none] at done
    rcases behindLast_shape (added.flatMap marker) (cut_pieces sentence) with
      ⟨failed, -⟩ | ⟨pre, ds, post, digits, shape, put⟩
    · cases failed.symm.trans done
    · exact .inr ⟨pre, ds, post, digits, shape, Option.some.inj (done.symm.trans put)⟩

theorem addMarkers_some {added : List Nat} {sentence : List Char}
    (cited : markerNumbers sentence ≠ []) : ∃ whole, addMarkers added sentence = some whole := by
  rw [addMarkers]
  by_cases none : added = []
  · exact ⟨sentence, if_pos none⟩
  · rw [if_neg none]
    rcases behindLast_shape (added.flatMap marker) (cut_pieces sentence) with
      ⟨-, nothing⟩ | ⟨pre, ds, post, -, -, put⟩
    · rw [markerNumbers_of, nothing] at cited
      exact absurd rfl cited
    · exact ⟨_, put⟩

theorem edits_addMarkers {fits : List Char → Prop} {added : List Nat} {sentence whole : List Char}
    (fit : ∀ k ∈ added, fits (digitsOf k)) (done : addMarkers added sentence = some whole) :
    Edits fits sentence whole := by
  rcases addMarkers_cases done with ⟨-, rfl⟩ | ⟨pre, ds, post, digits, rfl, rfl⟩
  · exact .refl
  · have chain := @edits_added fits pre ds post digits (added.map digitsOf) fun ds' mem => by
      obtain ⟨k, there, rfl⟩ := List.mem_map.mp mem
      exact fit k there
    rwa [List.flatMap_map] at chain

theorem added_parts (post : List Char) : ∀ added : List Nat,
    markerNumbers (added.flatMap marker ++ post) =
        added.filter (· < 100) ++ markerNumbers post ∧
      strays (added.flatMap marker ++ post) = (added.filter (100 ≤ ·)).length + strays post ∧
      ((∀ k ∈ added, k < 100) →
        wordsOutside (added.flatMap marker ++ post) = wordsOutside post)
  | [] => ⟨rfl, (Nat.zero_add _).symm, fun _ => rfl⟩
  | k :: added => by
      obtain ⟨numbers, count, outside⟩ := added_parts post added
      have shape : (k :: added).flatMap marker ++ post =
          [] ++ (bracket (digitsOf k) ++ (added.flatMap marker ++ post)) := by
        rw [List.flatMap_cons, List.append_assoc]
        rfl
      have numeral := decimals_digitsOf k
      rw [shape, markerNumbers_bracket numeral, strays_bracket numeral, numbers, count,
        markerNumbers_free List.not_mem_nil, strays, blanked_free List.not_mem_nil]
      by_cases small : k < 100
      · have digits := digits_digitsOf.mpr small
        rw [if_pos digits, if_pos digits, intOf_digitsOf,
          List.filter_cons_of_pos (by simpa using small),
          List.filter_cons_of_neg (by simpa using small)]
        refine ⟨rfl, by simp, fun each => ?_⟩
        rw [wordsOutside, blanked_mark digits, blanked_free List.not_mem_nil, List.nil_append,
          words_blank (by decide)]
        exact outside fun j mem => each j (List.mem_cons_of_mem k mem)
      · have long := fun digits => small (digits_digitsOf.mp digits)
        rw [if_neg long, if_neg long, List.filter_cons_of_neg (by simpa using small),
          List.filter_cons_of_pos (by simpa using small)]
        refine ⟨rfl, ?_, fun each => absurd (each k List.mem_cons_self) small⟩
        simp only [List.count_nil, List.length_cons]
        omega

theorem mem_markerNumbers_added {added : List Nat} {sentence whole : List Char} {n : Nat}
    (done : addMarkers added sentence = some whole) :
    n ∈ markerNumbers whole ↔ n ∈ markerNumbers sentence ∨ (n ∈ added ∧ n < 100) := by
  rcases addMarkers_cases done with ⟨rfl, rfl⟩ | ⟨pre, ds, post, digits, rfl, rfl⟩
  · simp
  · rw [markerNumbers_mark digits, markerNumbers_mark digits, (added_parts post added).1]
    simp only [List.mem_append, List.mem_cons, List.mem_filter, decide_eq_true_eq]
    tauto

theorem strays_added {added : List Nat} {sentence whole : List Char}
    (done : addMarkers added sentence = some whole) :
    strays whole = strays sentence + (added.filter (100 ≤ ·)).length := by
  rcases addMarkers_cases done with ⟨rfl, rfl⟩ | ⟨pre, ds, post, digits, rfl, rfl⟩
  · simp
  · rw [strays_bracket digits.2, strays_bracket digits.2, (added_parts post added).2.1]
    omega

theorem wordsOutside_added {added : List Nat} {sentence whole : List Char}
    (small : ∀ k ∈ added, k < 100) (done : addMarkers added sentence = some whole) :
    wordsOutside whole = wordsOutside sentence := by
  rcases addMarkers_cases done with ⟨-, rfl⟩ | ⟨pre, ds, post, digits, rfl, rfl⟩
  · rfl
  · have outside := (added_parts post added).2.2 small
    rw [wordsOutside, wordsOutside] at outside
    rw [wordsOutside, wordsOutside, blanked_mark digits, blanked_mark digits,
      words_append_blank (by decide), words_append_blank (by decide), outside]

/-! ## A repaired sentence -/

/-- A sentence with nothing to repair: it cites no provided source or states no figure, or
each stated figure some source has is one of a source it cites. -/
def Settled (sources : List Figures) (stated : Figures) (sentence : List Char) : Prop :=
  cites sources sentence = [] ∨ stated = [] ∨
    ∀ f ∈ stated, (∃ h ∈ sources, f ∈ h) → ∃ n ∈ cites sources sentence, f ∈ heldBy sources n

theorem settled_iff {sources : List Figures} {stated : Figures} {sentence : List Char} :
    Settled sources stated sentence ↔ cites sources sentence = [] ∨ stated = [] ∨
      missingFrom sources stated (cites sources sentence) = [] := by
  have none : missingFrom sources stated (cites sources sentence) = [] ↔ ∀ f ∈ stated,
      (∃ h ∈ sources, f ∈ h) → ∃ n ∈ cites sources sentence, f ∈ heldBy sources n := by
    rw [missingFrom, List.filter_eq_nil_iff]
    refine forall₂_congr fun f _ => ?_
    simp only [decide_eq_true_eq, not_and', not_forall, not_not, exists_prop]
  rw [Settled, none]

variable (host : Host) (word : Char → Bool)

/-- What becomes of a sentence that is not settled. -/
structure Repaired (sources : List Figures) (stated : Figures) (before after : List Char) :
    Prop where
  credited : ∀ f ∈ stated, (∃ h ∈ sources, f ∈ h) →
    ∃ n ∈ cites sources after, f ∈ heldBy sources n
  stays : ∀ n ∈ cites sources before, (∃ f ∈ stated, f ∈ heldBy sources n) →
    n ∈ cites sources after
  fresh : ∀ n ∈ markerNumbers after, n ∉ markerNumbers before →
    1 ≤ n ∧ n ≤ sources.length ∧ ∃ f ∈ stated, f ∈ heldBy sources n
  outside : ∃ whole, wordsOutside whole = wordsOutside before ∧ after = collapse whole ∧
    Relation.ReflTransGen Collapses whole after
  states : figures host word after = some stated

/-- The sources credited to a sentence can be written as markers: the one that replaces dead
ones has a number below 100, and so has any other, or its bracket stands in the sentence
already; and those below 100 have all that is missing. -/
def Writable (sources : List Figures) (stated : Figures) (sentence : List Char) : Prop :=
  let missing := missingFrom sources stated (cites sources sentence)
  let credited := creditedFor sources missing
  (deadOf sources stated (cites sources sentence) ≠ [] → ∀ first ∈ credited.head?, first < 100) ∧
  (∀ k ∈ credited, 100 ≤ k → contains (marker k) sentence = true) ∧
  ∀ f ∈ missing, ∃ k ∈ credited, k < 100 ∧ f ∈ heldBy sources k

theorem mem_cites {sources : List Figures} {text : List Char} {n : Nat} :
    n ∈ cites sources text ↔ n ∈ markerNumbers text ∧ 1 ≤ n ∧ n ≤ sources.length := by
  rw [cites, List.mem_filter, decide_eq_true_iff]

theorem mem_missingFrom {sources : List Figures} {stated : Figures} {cited : List Nat}
    {f : List Char} : f ∈ missingFrom sources stated cited ↔ f ∈ stated ∧
      (∀ n ∈ cited, f ∉ heldBy sources n) ∧ ∃ h ∈ sources, f ∈ h := by
  rw [missingFrom, List.mem_filter, decide_eq_true_iff]

theorem mem_deadOf {sources : List Figures} {stated : Figures} {cited : List Nat} {n : Nat} :
    n ∈ deadOf sources stated cited ↔ n ∈ cited ∧ ∀ f ∈ stated, f ∉ heldBy sources n := by
  rw [deadOf, List.mem_eraseDups, List.mem_filter, decide_eq_true_iff, List.filter_eq_nil_iff]
  simp only [decide_eq_true_eq]
  exact and_congr_right fun _ => ⟨fun none f mem has => none f has mem,
    fun none f has mem => none f mem has⟩

theorem mem_lacking {credited : List Nat} {sentence : List Char} {k : Nat} :
    k ∈ lacking credited sentence ↔ k ∈ credited ∧ ¬ contains (marker k) sentence = true := by
  rw [lacking, List.mem_filter, Bool.not_eq_eq_eq_not, Bool.not_true, Bool.not_eq_true]

theorem rewriteSentence_cases {dead credited : List Nat} {sentence after : List Char} {n : Nat}
    (done : rewriteSentence dead credited sentence = some (after, n)) :
    ∃ replaced whole, replaceDead dead credited sentence = some replaced ∧
      addMarkers (lacking credited replaced) replaced = some whole ∧ after = collapse whole := by
  rw [rewriteSentence] at done
  obtain ⟨replaced, first, done⟩ := Option.bind_eq_some_iff.mp done
  obtain ⟨whole, second, last⟩ := Option.bind_eq_some_iff.mp done
  cases last
  exact ⟨replaced, whole, first, second, rfl⟩

section

variable {sources : List Figures} {stated : Figures} {sentence : List Char}

/-- A sentence that is not settled is credited a source. -/
theorem credited_ne_nil (unsettled : ¬ Settled sources stated sentence) :
    ∃ first others, creditedFor sources (missingFrom sources stated (cites sources sentence)) =
      first :: others := by
  rw [settled_iff] at unsettled
  have some_missing : missingFrom sources stated (cites sources sentence) ≠ [] :=
    fun none => unsettled (.inr (.inr none))
  obtain ⟨f, mem⟩ := List.exists_mem_of_ne_nil _ some_missing
  obtain ⟨k, credited, -⟩ := replacementsFor_covers (Nat.le_refl _) mem (mem_missingFrom.mp mem).2.2
  exact List.exists_cons_of_ne_nil (List.ne_nil_of_mem credited)

/-- Re-pointing edits the sentence, whatever it writes. -/
theorem edits_rewriteSentence {after : List Char} {n : Nat}
    (unsettled : ¬ Settled sources stated sentence)
    (done : rewriteSentence (deadOf sources stated (cites sources sentence))
      (creditedFor sources (missingFrom sources stated (cites sources sentence))) sentence =
        some (after, n)) : Edits Decimals sentence after := by
  obtain ⟨first, others, shape⟩ := credited_ne_nil unsettled
  obtain ⟨replaced, whole, one, two, rfl⟩ := rewriteSentence_cases done
  rw [replaceDead_eq (by rw [shape]; rfl)] at one
  rw [one] at two
  exact ((edits_renamed (revise_decimals _ _) sentence).trans
    (edits_addMarkers (fun k _ => decimals_digitsOf k) two)).trans (edits_collapse _ _)

/-- A bracket that is no marker stands in the sentence when it does once the dead sources
are replaced. -/
theorem contains_revised {dead : List Nat} {first k : Nat} (small : dead ≠ [] → first < 100)
    (large : 100 ≤ k) :
    contains (marker k) (renamed (revise dead first) sentence) = true ↔
      contains (marker k) sentence = true := by
  have long : ¬ Digits (digitsOf k) := fun digits =>
    absurd (digits_digitsOf.mp digits) (Nat.not_lt.mpr large)
  rw [marker_eq, ← contains_blanked (decimals_digitsOf k) long, blanked_revised small,
    contains_blanked (decimals_digitsOf k) long]

/-- The numbers of a re-pointed sentence whose new brackets are markers. -/
theorem mem_markerNumbers_rewritten {dead credited : List Nat} {first n : Nat}
    {whole : List Char} (small : dead ≠ [] → first < 100)
    (short : ∀ k ∈ lacking credited (renamed (revise dead first) sentence), k < 100)
    (done : addMarkers (lacking credited (renamed (revise dead first) sentence))
      (renamed (revise dead first) sentence) = some whole) :
    n ∈ markerNumbers (collapse whole) ↔
      (n ∈ markerNumbers sentence ∧ n ∉ dead) ∨
        (n = first ∧ ∃ d ∈ markerNumbers sentence, d ∈ dead) ∨
        n ∈ lacking credited (renamed (revise dead first) sentence) := by
  rw [mem_markerNumbers_collapses (collapses_collapse whole), mem_markerNumbers_added done,
    mem_markerNumbers_revised small, or_assoc, and_iff_left_of_imp (short n)]

/-- **A sentence whose credited sources can be written is repaired.** -/
theorem repaired_of_writable (known : figures host word sentence = some stated)
    (unsettled : ¬ Settled sources stated sentence) (writable : Writable sources stated sentence) :
    ∃ after n, rewriteSentence (deadOf sources stated (cites sources sentence))
        (creditedFor sources (missingFrom sources stated (cites sources sentence))) sentence =
          some (after, n) ∧
      Repaired host word sources stated sentence after ∧ Edits Digits sentence after := by
  obtain ⟨first, others, shape⟩ := credited_ne_nil unsettled
  obtain ⟨leads, there, covered⟩ := writable
  generalize missing_eq : missingFrom sources stated (cites sources sentence) = missing at *
  generalize dead_eq : deadOf sources stated (cites sources sentence) = dead at *
  generalize credited_eq : creditedFor sources missing = credited at *
  have head : credited.head? = some first := by rw [shape]; rfl
  have small : dead ≠ [] → first < 100 := fun some_dead => leads some_dead first head
  have short : ∀ k ∈ lacking credited (renamed (revise dead first) sentence), k < 100 := by
    intro k mem
    obtain ⟨isCredited, absent⟩ := mem_lacking.mp mem
    by_contra large
    exact absent ((contains_revised small (by omega)).mpr (there k isCredited (by omega)))
  have sound : ∀ k ∈ credited, 1 ≤ k ∧ k ≤ sources.length ∧ ∃ f ∈ missing, f ∈ heldBy sources k :=
    fun k mem => replacementsFor_sound (credited_eq ▸ mem)
  have isMissing : ∀ f ∈ missing, f ∈ stated := fun f mem =>
    (mem_missingFrom.mp (missing_eq ▸ mem)).1
  have firstCredited : first ∈ credited := List.mem_of_head? head
  -- a cited source is one of the text's markers, and replacing it leaves one
  have citesSome : markerNumbers (renamed (revise dead first) sentence) ≠ [] := by
    rw [settled_iff] at unsettled
    obtain ⟨n, cited⟩ := List.exists_mem_of_ne_nil _ fun none => unsettled (.inl none)
    have mem := (mem_cites.mp cited).1
    by_cases isDead : n ∈ dead
    · exact List.ne_nil_of_mem ((mem_markerNumbers_revised small).mpr (.inr ⟨rfl, n, mem, isDead⟩))
    · exact List.ne_nil_of_mem ((mem_markerNumbers_revised small).mpr (.inl ⟨mem, isDead⟩))
  obtain ⟨whole, done⟩ :=
    @addMarkers_some (lacking credited (renamed (revise dead first) sentence)) _ citesSome
  have replaced := (@replaceDead_eq dead credited sentence _ first head).mpr rfl
  have numbers := fun n => @mem_markerNumbers_rewritten sentence dead credited first n whole
    small short done
  have edits : Edits Digits sentence (collapse whole) :=
    ((edits_renamed (revise_digits small) sentence).trans
      (edits_addMarkers (fun k mem => digits_digitsOf.mpr (short k mem)) done)).trans
      (edits_collapse _ _)
  have alive : ∀ n ∈ cites sources sentence, (∃ f ∈ stated, f ∈ heldBy sources n) →
      n ∈ cites sources (collapse whole) := by
    rintro n cited ⟨f, isStated, held⟩
    obtain ⟨mem, bounds⟩ := mem_cites.mp cited
    refine mem_cites.mpr ⟨(numbers n).mpr (.inl ⟨mem, fun isDead => ?_⟩), bounds⟩
    exact (mem_deadOf.mp (dead_eq ▸ isDead)).2 f isStated held
  refine ⟨collapse whole, dead.length + (lacking credited
    (renamed (revise dead first) sentence)).length, ?_, ⟨?_, alive, ?_, ?_, ?_⟩, edits⟩
  · rw [rewriteSentence, replaced]
    simp only [bind, Option.bind_some, done, pure]
  · intro f isStated has
    by_cases lost : f ∈ missing
    · obtain ⟨k, isCredited, below, held⟩ := covered f lost
      obtain ⟨one, bound, -⟩ := sound k isCredited
      refine ⟨k, mem_cites.mpr ⟨?_, one, bound⟩, held⟩
      by_cases absent : contains (marker k) (renamed (revise dead first) sentence) = true
      · rcases (mem_markerNumbers_revised small).mp (cited_of_contains below absent) with
          old | new
        · exact (numbers k).mpr (.inl old)
        · exact (numbers k).mpr (.inr (.inl new))
      · exact (numbers k).mpr (.inr (.inr (mem_lacking.mpr ⟨isCredited, absent⟩)))
    · rw [← missing_eq, mem_missingFrom] at lost
      have known : ∃ n ∈ cites sources sentence, f ∈ heldBy sources n := by
        by_contra unknown
        exact lost ⟨isStated, fun n cited held => unknown ⟨n, cited, held⟩, has⟩
      obtain ⟨n, cited, held⟩ := known
      exact ⟨n, alive n cited ⟨f, isStated, held⟩, held⟩
  · intro n mem new
    have credits : ∀ k ∈ credited, 1 ≤ k ∧ k ≤ sources.length ∧
        ∃ f ∈ stated, f ∈ heldBy sources k := by
      intro k isCredited
      obtain ⟨one, bound, f, lost, held⟩ := sound k isCredited
      exact ⟨one, bound, f, isMissing f lost, held⟩
    rcases (numbers n).mp mem with old | ⟨rfl, -⟩ | added
    · exact absurd old.1 new
    · exact credits n firstCredited
    · exact credits n (mem_lacking.mp added).1
  · refine ⟨whole, ?_, rfl, collapses_collapse whole⟩
    rw [wordsOutside_added short done, wordsOutside, blanked_revised small]
    rfl
  · rw [figures_edits host word edits, known]

/-- **A repaired sentence is one whose credited sources can be written.** -/
theorem writable_of_repaired {after : List Char} {n : Nat}
    (unsettled : ¬ Settled sources stated sentence)
    (done : rewriteSentence (deadOf sources stated (cites sources sentence))
      (creditedFor sources (missingFrom sources stated (cites sources sentence))) sentence =
        some (after, n))
    (repaired : Repaired host word sources stated sentence after) :
    Writable sources stated sentence := by
  obtain ⟨first, others, shape⟩ := credited_ne_nil unsettled
  obtain ⟨replaced, whole, one, two, rfl⟩ := rewriteSentence_cases done
  have head : (creditedFor sources (missingFrom sources stated
      (cites sources sentence))).head? = some first := by rw [shape]; rfl
  rw [replaceDead_eq head] at one
  subst one
  unfold Writable
  dsimp only
  generalize missing_eq : missingFrom sources stated (cites sources sentence) = missing at *
  generalize dead_eq : deadOf sources stated (cites sources sentence) = dead at *
  generalize creditedFor sources missing = credited at *
  -- the stray brackets of the text are those there were
  have kept : strays whole = strays sentence := by
    obtain ⟨middle, words_same, -, chain⟩ := repaired.outside
    rw [← strays_collapses (collapses_collapse whole), strays_collapses chain, strays_eq,
      words_same, ← strays_eq]
  have count := strays_added two
  obtain ⟨atLeast, more⟩ := strays_renamed (revise_decimals dead first) sentence
  have small : dead ≠ [] → first < 100 := by
    intro some_dead
    by_contra large
    obtain ⟨d, isDead⟩ := List.exists_mem_of_ne_nil _ some_dead
    have cited := (mem_deadOf.mp (dead_eq ▸ isDead)).1
    have grown := more d (mem_cites.mp cited).1 fun ds _ same digits => by
      rw [revise, if_pos (same ▸ isDead)] at digits
      exact large (digits_digitsOf.mp digits)
    omega
  have short : ∀ k ∈ lacking credited (renamed (revise dead first) sentence), k < 100 := by
    intro k mem
    by_contra large
    have there : k ∈ (lacking credited (renamed (revise dead first) sentence)).filter
        (100 ≤ ·) := List.mem_filter.mpr ⟨mem, by simpa using large⟩
    have pos := List.length_pos_of_mem there
    omega
  refine ⟨fun some_dead first' leads => ?_, fun k isCredited large => ?_, fun f lost => ?_⟩
  · rw [head] at leads
    cases leads
    exact small some_dead
  · by_contra absent
    rw [← contains_revised small large] at absent
    exact absurd (short k (mem_lacking.mpr ⟨isCredited, absent⟩)) (by omega)
  · obtain ⟨isStated, uncited, has⟩ := mem_missingFrom.mp (missing_eq ▸ lost)
    obtain ⟨m, cited, held⟩ := repaired.credited f isStated has
    obtain ⟨mem, bounds⟩ := mem_cites.mp cited
    rcases (mem_markerNumbers_rewritten small short two).mp mem with old | ⟨rfl, _, _, isDead⟩ | new
    · exact absurd held (uncited m (mem_cites.mpr ⟨old.1, bounds⟩))
    · exact ⟨m, List.mem_of_head? head, small (List.ne_nil_of_mem isDead), held⟩
    · exact ⟨m, (mem_lacking.mp new).1, short m new, held⟩

end

end OpsAssist.Repointing
