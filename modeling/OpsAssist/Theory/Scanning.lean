/-
# OpsAssist.Theory.Scanning -- where a scan can be cut

A pattern avoids a character when none of its classes accepts it.  Then no match reads
across that character: what is found before it does not depend on what follows
(`taken_avoided`), and the scan goes on behind it on its own (`scan_avoided`).

`Misses` says that no match begins in a text.  `rewritten`: a relation between a match and
what it is rewritten to, when texts around keep it, relates the text and its rewriting.
`mem_run_rep`: a repetition is a chain of rounds.
-/
import Mathlib.Logic.Relation
import OpsAssist.Theory.Pattern

namespace OpsAssist.Theory

set_option autoImplicit false

/-- The same place before a longer text. -/
def Place.more (s : Place) (behind : List Char) : Place := { s with rest := s.rest ++ behind }

namespace Pattern

/-! ## Avoided characters -/

/-- No class of the pattern accepts the character, and no captured text is read again. -/
def Avoids (z : Char) : Pattern → Prop
  | empty => True
  | set accepts => accepts z = false
  | look _ => True
  | seq first second => first.Avoids z ∧ second.Avoids z
  | alt first second => first.Avoids z ∧ second.Avoids z
  | rep _ _ body => body.Avoids z
  | group _ body => body.Avoids z
  | again _ => False

theorem avoids_oneOf {z : Char} : ∀ {choices : List Pattern}, (∀ p ∈ choices, p.Avoids z) →
    (oneOf choices).Avoids z
  | [], _ => trivial
  | p :: _, each => ⟨each p List.mem_cons_self,
      avoids_oneOf fun q mem => each q (List.mem_cons_of_mem p mem)⟩

theorem avoids_anyCase {z : Char} {word : String}
    (others : ∀ c ∈ word.toList, sameLetter c z = false) : (anyCase word).Avoids z := by
  unfold anyCase
  revert others
  induction word.toList with
  | nil => exact fun _ => trivial
  | cons c more ih =>
      intro others
      exact ⟨others c List.mem_cons_self, ih fun d mem => others d (List.mem_cons_of_mem c mem)⟩

/-- An avoided character is still there after a match. -/
theorem mem_rest_run {z : Char} : ∀ {p : Pattern}, p.Avoids z → ∀ {s : Place}, z ∈ s.rest →
    ∀ t ∈ p.run s, z ∈ t.rest
  | empty, _, s, here, t, mem => by
      rw [List.mem_singleton.mp mem]
      exact here
  | set accepts, avoids, s, here, t, mem => by
      obtain ⟨c, shape, fits, -⟩ := mem_run_set mem
      rw [shape] at here
      rcases List.mem_cons.mp here with rfl | later
      · cases avoids.symm.trans fits
      · exact later
  | look holds, _, s, here, t, mem => by
      rw [(mem_run_look mem).1]
      exact here
  | seq first second, avoids, s, here, t, mem => by
      obtain ⟨u, front, back⟩ := mem_run_seq.mp mem
      exact mem_rest_run avoids.2 (mem_rest_run avoids.1 here u front) t back
  | alt first second, avoids, s, here, t, mem => by
      rcases List.mem_append.mp mem with one | other
      · exact mem_rest_run avoids.1 here t one
      · exact mem_rest_run avoids.2 here t other
  | rep least most body, avoids, s, here, t, mem =>
      @repeats_keeps body.run (fun u => z ∈ u.rest)
        (fun _ there u inBody => mem_rest_run (p := body) avoids there u inBody)
        _ least most s here t mem
  | group number body, avoids, s, here, t, mem => by
      obtain ⟨u, inside, rest, -⟩ := mem_run_group mem
      rw [rest]
      exact mem_rest_run (p := body) avoids here u inside

theorem repeats_more {z : Char} {body : Place → List Place} {behind : List Char}
    (same : ∀ s : Place, z ∈ s.rest → body (s.more behind) = (body s).map (·.more behind))
    (keeps : ∀ s : Place, z ∈ s.rest → ∀ t ∈ body s, z ∈ t.rest) :
    ∀ (bound least : Nat) (most : Option Nat) (s : Place), z ∈ s.rest →
      repeats body bound least most (s.more behind) =
        (repeats body bound least most s).map (·.more behind)
  | 0, least, most, s, _ => by
      rw [repeats, repeats]
      split <;> rfl
  | bound + 1, least, most, s, here => by
      have shorter : ((body (s.more behind)).filter fun t =>
            t.rest.length < (s.more behind).rest.length) =
          ((body s).filter fun t => t.rest.length < s.rest.length).map (·.more behind) := by
        rw [same s here, List.filter_map]
        congr 1
        refine List.filter_congr fun t _ => ?_
        simp [Place.more]
      have rounds : ((body s).filter fun t => t.rest.length < s.rest.length).flatMap (fun t =>
            repeats body bound (least - 1) (most.map (· - 1)) (t.more behind)) =
          (((body s).filter fun t => t.rest.length < s.rest.length).flatMap
            (repeats body bound (least - 1) (most.map (· - 1)))).map (·.more behind) := by
        rw [List.map_flatMap]
        refine List.flatMap_congr fun t mem => ?_
        exact repeats_more same keeps bound _ _ t (keeps s here t (List.mem_filter.mp mem).1)
      rw [repeats, repeats, List.map_append, shorter, List.flatMap_map, rounds]
      congr 1
      · split <;> rfl
      · split <;> rfl

/-- **Where an avoided character is still to come, what is behind it does not matter.** -/
theorem run_more {z : Char} (behind : List Char) : ∀ {p : Pattern}, p.Avoids z →
    ∀ {s : Place}, z ∈ s.rest → p.run (s.more behind) = (p.run s).map (·.more behind)
  | empty, _, s, _ => rfl
  | set accepts, _, s, here => by
      obtain ⟨c, rest, shape⟩ := List.exists_cons_of_ne_nil (List.ne_nil_of_mem here)
      simp only [run, Place.more, shape, List.cons_append]
      split <;> rfl
  | look holds, _, s, here => by
      have same : (s.more behind).rest.head? = s.rest.head? := by
        rw [Place.more, List.head?_append, Option.or_of_isSome]
        rw [List.isSome_head?]
        exact List.ne_nil_of_mem here
      rw [run, run, same]
      show (if holds s.prior s.rest.head? = true then _ else _) = _
      split <;> rfl
  | seq first second, avoids, s, here => by
      rw [run, run, run_more behind avoids.1 here, List.flatMap_map, List.map_flatMap]
      refine List.flatMap_congr fun t mem => ?_
      exact run_more behind avoids.2 (mem_rest_run avoids.1 here t mem)
  | alt first second, avoids, s, here => by
      rw [run, run, run_more behind avoids.1 here, run_more behind avoids.2 here, List.map_append]
  | rep least most body, avoids, s, here => by
      have longer : (s.more behind).rest.length = s.rest.length + behind.length := by
        rw [Place.more, List.length_append]
      rw [run, run, longer, repeats_more (z := z)
        (fun t there => run_more behind (p := body) avoids there)
        (fun t there => mem_rest_run (p := body) avoids there) _ _ _ _ here,
        repeats_enough body.run _ _ _ _ _ (Nat.le_refl _)]
  | group number body, avoids, s, here => by
      rw [run, run, run_more behind (p := body) avoids here, List.map_map, List.map_map]
      refine List.map_congr_left fun t mem => ?_
      have read : (s.more behind).read (t.more behind) = s.read t := by
        have shorter := (run_suffix body s t mem).length_le
        simp only [Place.read, Place.more, List.length_append]
        rw [Nat.add_sub_add_right, List.take_append_of_le_length (by omega)]
      simp only [Function.comp, read]
      rfl

/-! ## Cutting a scan -/

/-- What a scan takes at a place: the match there, if it reads anything. -/
def taken (p : Pattern) (s : Place) : Option Match := (p.matchAt s).filter fun m => m.text ≠ []

theorem matchAt_more {p : Pattern} {z : Char} (avoids : p.Avoids z) {s : Place}
    (here : z ∈ s.rest) (behind : List Char) : p.matchAt (s.more behind) = p.matchAt s := by
  rw [matchAt, matchAt, run_more behind avoids here, List.head?_map, Option.map_map]
  cases first : (p.run s).head? with
  | none => rfl
  | some t =>
      have shorter := (run_suffix p s t (List.mem_of_head? first)).length_le
      have read : (s.more behind).read (t.more behind) = s.read t := by
        simp only [Place.read, Place.more, List.length_append]
        rw [Nat.add_sub_add_right, List.take_append_of_le_length (by omega)]
      simp only [Option.map_some, Function.comp, read]
      rfl

/-- What is taken before an avoided character is settled by then. -/
theorem taken_avoided {p : Pattern} {z : Char} (avoids : p.Avoids z) (prior : Option Char)
    (before behind : List Char) :
    p.taken { prior, rest := before ++ z :: behind } =
      p.taken { prior, rest := before ++ [z] } := by
  have longer : ({ prior, rest := before ++ z :: behind } : Place) =
      Place.more { prior, rest := before ++ [z] } behind := by
    simp [Place.more]
  rw [taken, taken, longer, matchAt_more avoids (by simp)]

/-- A match is as long as what it takes, which ends before an avoided character. -/
theorem taken_length {p : Pattern} {z : Char} (avoids : p.Avoids z) {prior : Option Char}
    {before behind : List Char} {m : Match}
    (found : p.taken { prior, rest := before ++ z :: behind } = some m) :
    m.text ≠ [] ∧ m.text.length ≤ before.length := by
  rw [taken_avoided avoids] at found
  obtain ⟨matched, nonempty⟩ := Option.filter_eq_some_iff.mp found
  obtain ⟨t, mem, rfl⟩ := matchAt_mem matched
  have still := mem_rest_run avoids (s := { prior, rest := before ++ [z] }) (by simp) t mem
  have some_left := List.length_pos_of_mem still
  refine ⟨of_decide_eq_true nonempty, ?_⟩
  simp only [Place.read, List.length_take, List.length_append, List.length_singleton]
  omega

/-- Nothing is taken at an avoided character. -/
theorem taken_at_avoided {p : Pattern} {z : Char} (avoids : p.Avoids z) (prior : Option Char)
    (behind : List Char) : p.taken { prior, rest := z :: behind } = none := by
  cases found : p.taken { prior, rest := z :: behind } with
  | none => rfl
  | some m =>
      obtain ⟨nonempty, short⟩ := @taken_length p z avoids prior [] behind m found
      exact absurd (List.length_eq_zero_iff.mp (Nat.le_zero.mp short)) nonempty

theorem scan_taken {p : Pattern} {prior : Option Char} {c : Char} {rest : List Char} {m : Match}
    (found : p.taken { prior, rest := c :: rest } = some m) :
    p.scan prior 0 (c :: rest) = .found m :: p.scan (some c) (m.text.length - 1) rest := by
  rw [taken] at found
  rw [scan, found]

theorem scan_passed {p : Pattern} {prior : Option Char} {c : Char} {rest : List Char}
    (missed : p.taken { prior, rest := c :: rest } = none) :
    p.scan prior 0 (c :: rest) = .plain c :: p.scan (some c) 0 rest := by
  rw [taken] at missed
  rw [scan, missed]

/-- **A scan goes on behind an avoided character on its own.** -/
theorem scan_avoided {p : Pattern} {z : Char} (avoids : p.Avoids z) (behind : List Char) :
    ∀ (before : List Char) (prior : Option Char) (skip : Nat), skip ≤ before.length →
      p.scan prior skip (before ++ z :: behind) =
        p.scan prior skip (before ++ [z]) ++ p.scan (some z) 0 behind
  | [], prior, skip, short => by
      rw [Nat.le_zero.mp short, List.nil_append, List.nil_append,
        scan_passed (taken_at_avoided avoids prior behind),
        scan_passed (taken_at_avoided avoids prior [])]
      rfl
  | c :: before, prior, skip + 1, short => by
      rw [List.cons_append, List.cons_append, scan, scan]
      exact scan_avoided avoids behind before _ skip (Nat.le_of_succ_le_succ short)
  | c :: before, prior, 0, _ => by
      have settled := taken_avoided avoids prior (c :: before) behind
      have bound := @taken_length p z avoids prior (c :: before) behind
      rw [List.cons_append] at bound
      rw [List.cons_append, List.cons_append] at settled
      rw [List.cons_append, List.cons_append]
      cases found : p.taken { prior, rest := c :: (before ++ z :: behind) } with
      | none =>
          rw [found] at settled
          rw [scan_passed found, scan_passed settled.symm,
            List.cons_append, scan_avoided avoids behind before _ 0 (Nat.zero_le _)]
      | some m =>
          have short := (bound found).2
          rw [found] at settled
          rw [List.length_cons] at short
          rw [scan_taken found, scan_taken settled.symm,
            List.cons_append, scan_avoided avoids behind before _ _ (by omega)]

/-- An avoided character at the end is passed last. -/
theorem scan_last {p : Pattern} {z : Char} (avoids : p.Avoids z) :
    ∀ (before : List Char) (prior : Option Char) (skip : Nat), skip ≤ before.length →
      ∃ ps, p.scan prior skip (before ++ [z]) = ps ++ [.plain z]
  | [], prior, skip, short => by
      rw [Nat.le_zero.mp short, List.nil_append, scan_passed (taken_at_avoided avoids prior [])]
      exact ⟨[], rfl⟩
  | c :: before, prior, skip + 1, short => by
      rw [List.cons_append, scan]
      exact scan_last avoids before _ skip (Nat.le_of_succ_le_succ short)
  | c :: before, prior, 0, _ => by
      have bound := @taken_length p z avoids prior (c :: before) []
      rw [List.cons_append] at bound ⊢
      cases found : p.taken { prior, rest := c :: (before ++ [z]) } with
      | none =>
          obtain ⟨ps, last⟩ := scan_last avoids before (some c) 0 (Nat.zero_le _)
          exact ⟨.plain c :: ps, by rw [scan_passed found, last]; rfl⟩
      | some m =>
          have short := (bound found).2
          rw [List.length_cons] at short
          obtain ⟨ps, last⟩ := scan_last avoids before (some c) (m.text.length - 1) (by omega)
          exact ⟨.found m :: ps, by rw [scan_taken found, last]; rfl⟩

/-! ## Texts no match begins in -/

/-- No match begins in a text that stands before another. -/
def Misses (p : Pattern) : Option Char → List Char → List Char → Prop
  | _, [], _ => True
  | prior, c :: text, behind =>
      p.taken { prior, rest := c :: text ++ behind } = none ∧ Misses p (some c) text behind

theorem misses_append {p : Pattern} {behind : List Char} : ∀ {front : List Char}
    {prior : Option Char} {back : List Char},
    p.Misses prior (front ++ back) behind ↔
      p.Misses prior front (back ++ behind) ∧ p.Misses (front.getLast?.or prior) back behind
  | [], prior, back => by simp [Misses]
  | c :: front, prior, back => by
      rw [List.cons_append, Misses, Misses, misses_append, getLast?_cons_or, and_assoc]
      simp [List.append_assoc]

/-- A text no match begins in is passed character by character. -/
theorem scan_misses {p : Pattern} {behind : List Char} : ∀ {text : List Char}
    {prior : Option Char}, p.Misses prior text behind →
    p.scan prior 0 (text ++ behind) =
      text.map .plain ++ p.scan (text.getLast?.or prior) 0 behind
  | [], _, _ => rfl
  | c :: text, prior, ⟨missed, later⟩ => by
      rw [List.cons_append] at missed ⊢
      rw [scan_passed missed, scan_misses later, getLast?_cons_or]
      rfl

/-- Behind an avoided character, what follows does not matter. -/
theorem misses_avoided {p : Pattern} {z : Char} (avoids : p.Avoids z) {w x y : List Char} :
    ∀ {text : List Char} {prior : Option Char},
      p.Misses prior text (w ++ z :: x) → p.Misses prior text (w ++ z :: y)
  | [], _, _ => trivial
  | c :: text, prior, ⟨missed, later⟩ => by
      refine ⟨?_, misses_avoided avoids later⟩
      rw [← List.append_assoc, taken_avoided avoids] at missed ⊢
      exact missed

/-- No match begins in a text of avoided characters. -/
theorem misses_of_avoids {p : Pattern} {behind : List Char} : ∀ {text : List Char}
    {prior : Option Char}, (∀ c ∈ text, p.Avoids c) → p.Misses prior text behind
  | [], _, _ => trivial
  | c :: _, prior, each => ⟨taken_at_avoided (each c List.mem_cons_self) prior _,
      misses_of_avoids fun d mem => each d (List.mem_cons_of_mem c mem)⟩

/-! ## Rewriting -/

/-- The text a piece is rewritten to. -/
def rewrite (f : Match → List Char) : Piece → List Char
  | .found m => f m
  | .plain c => [c]

theorem sub_eq (p : Pattern) (f : Match → List Char) (text : List Char) :
    p.sub f text = (p.pieces text).flatMap (rewrite f) := by
  rw [sub]
  rfl

def matchOf : Piece → Option Match
  | .found m => some m
  | .plain _ => none

theorem findAll_eq (p : Pattern) (text : List Char) :
    p.findAll text = (p.pieces text).filterMap matchOf := by
  rw [findAll]
  rfl

theorem filterMap_plain (text : List Char) : (text.map Piece.plain).filterMap matchOf = [] := by
  rw [List.filterMap_eq_nil_iff]
  intro piece mem
  obtain ⟨c, -, rfl⟩ := List.mem_map.mp mem
  rfl

theorem flatMap_plain (f : Match → List Char) : ∀ text : List Char,
    (text.map Piece.plain).flatMap (rewrite f) = text
  | [] => rfl
  | c :: text => by
      rw [List.map_cons, List.flatMap_cons, flatMap_plain f text]
      rfl

/-- **A relation that holds of every match and what it is rewritten to, and that texts
around keep, holds of a text and its rewriting.** -/
theorem rewritten {p : Pattern} {f : Match → List Char} {related : List Char → List Char → Prop}
    (refl : ∀ text, related text text)
    (trans : ∀ x y z, related x y → related y z → related x z)
    (around : ∀ front x y back, related x y → related (front ++ (x ++ back)) (front ++ (y ++ back)))
    (one : ∀ prior rest m, p.matchAt { prior, rest } = some m → related m.text (f m))
    (text : List Char) :
    related text (p.sub f text) := by
  have each : ∀ m, .found m ∈ p.pieces text → related m.text (f m) := by
    intro m mem
    obtain ⟨before, after, -, matched⟩ :=
      scan_occurs p text.length text none (Nat.le_refl _) m mem
    exact one _ _ m matched
  have whole : (p.pieces text).flatMap Piece.text = text := pieces_scan p text none 0
  rw [sub_eq]
  suffices related ((p.pieces text).flatMap Piece.text)
      ((p.pieces text).flatMap (rewrite f)) by rwa [whole] at this
  clear whole
  generalize p.pieces text = ps at each ⊢
  induction ps with
  | nil => exact refl _
  | cons piece ps ih =>
      have later := around piece.text _ _ [] (ih fun m mem => each m (List.mem_cons_of_mem _ mem))
      rw [List.append_nil, List.append_nil] at later
      have first : related piece.text (rewrite f piece) := by
        cases piece with
        | plain c => exact refl _
        | found m => exact each m List.mem_cons_self
      exact trans _ _ _ later (around [] _ _ _ first)

/-! ## What more ways to match read -/

theorem mem_run_all_cons {p : Pattern} {parts : List Pattern} {s t : Place} :
    t ∈ (all (p :: parts)).run s ↔ ∃ u ∈ p.run s, t ∈ (all parts).run u := mem_run_seq

theorem mem_run_all_nil {s t : Place} : t ∈ (all []).run s ↔ t = s := List.mem_singleton

theorem mem_run_alt {one other : Pattern} {s t : Place} :
    t ∈ (alt one other).run s ↔ t ∈ one.run s ∨ t ∈ other.run s := List.mem_append

theorem mem_run_char {c : Char} {s t : Place} (mem : t ∈ (char c).run s) :
    s.rest = c :: t.rest ∧ t.groups = s.groups := by
  obtain ⟨d, shape, fits, groups⟩ := mem_run_set mem
  rw [shape, of_decide_eq_true fits]
  exact ⟨rfl, groups⟩

theorem mem_run_literal {text : String} {s t : Place} (mem : t ∈ (literal text).run s) :
    s.rest = text.toList ++ t.rest ∧ t.groups = s.groups := by
  rw [literal] at mem
  revert mem
  generalize text.toList = cs
  induction cs generalizing s with
  | nil =>
      intro mem
      rw [List.mem_singleton.mp mem]
      exact ⟨rfl, rfl⟩
  | cons c cs ih =>
      intro mem
      obtain ⟨u, first, later⟩ := mem_run_seq.mp mem
      obtain ⟨shape, groups⟩ := mem_run_char first
      obtain ⟨shape', groups'⟩ := ih later
      exact ⟨by rw [shape, shape', List.cons_append], groups'.trans groups⟩

theorem mem_run_oneOf {s t : Place} : ∀ {choices : List Pattern}, t ∈ (oneOf choices).run s →
    ∃ p ∈ choices, t ∈ p.run s
  | [], mem => by cases (mem_run_look mem).2
  | p :: choices, mem => by
      rcases mem_run_alt.mp mem with first | later
      · exact ⟨p, List.mem_cons_self, first⟩
      · obtain ⟨q, choice, found⟩ := @mem_run_oneOf s t choices later
        exact ⟨q, List.mem_cons_of_mem p choice, found⟩

/-- A word read when case does not count, letter by letter. -/
theorem mem_run_anyCase {text : String} {s t : Place} (mem : t ∈ (anyCase text).run s) :
    ∃ front, s.rest = front ++ t.rest ∧
      List.Forall₂ (fun letter c => sameLetter letter c = true) text.toList front := by
  rw [anyCase] at mem
  revert mem
  generalize text.toList = letters
  induction letters generalizing s with
  | nil =>
      intro mem
      rw [List.mem_singleton.mp mem]
      exact ⟨[], rfl, .nil⟩
  | cons letter letters ih =>
      intro mem
      obtain ⟨u, first, later⟩ := mem_run_seq.mp mem
      obtain ⟨c, shape, fits, -⟩ := mem_run_set first
      obtain ⟨front, shape', each⟩ := ih later
      exact ⟨c :: front, by rw [shape, shape', List.cons_append], .cons fits each⟩

theorem mem_run_opt {p : Pattern} {s t : Place} (mem : t ∈ (opt p).run s) :
    t = s ∨ t ∈ p.run s := by
  have stop : ∀ (bound : Nat) (u v : Place), v ∈ repeats p.run bound 0 (some 0) u → v = u := by
    intro bound u v mem
    cases bound <;> simpa [repeats] using mem
  rw [opt, run] at mem
  cases size : s.rest.length with
  | zero =>
      rw [size, repeats, if_pos rfl, List.mem_singleton] at mem
      exact .inl mem
  | succ bound =>
      rw [size, repeats, if_neg (by simp), List.mem_append] at mem
      rcases mem with more | none
      · obtain ⟨u, inBody, later⟩ := List.mem_flatMap.mp more
        rw [stop _ _ _ later]
        exact .inr (List.mem_filter.mp inBody).1
      · rw [if_pos rfl, List.mem_singleton] at none
        exact .inl none

/-! ## Repetitions and captured texts -/

/-- A repetition is a chain of rounds. -/
theorem mem_run_rep {least : Nat} {most : Option Nat} {body : Pattern} {s t : Place}
    (mem : t ∈ (rep least most body).run s) :
    Relation.ReflTransGen (fun u v => v ∈ body.run u) s t :=
  @repeats_keeps body.run (Relation.ReflTransGen (fun u v => v ∈ body.run u) s)
    (fun _ chain _ round => chain.tail round) _ least most s .refl t mem

theorem past_rest : ∀ {text : List Char} {s t : Place}, s.past text = some t →
    s.rest = text ++ t.rest ∧ t.groups = s.groups
  | [], _, _, past => by
      cases past
      exact ⟨rfl, rfl⟩
  | c :: more, s, t, past => by
      rw [Place.past] at past
      cases rest : s.rest with
      | nil =>
          rw [rest] at past
          cases past
      | cons d behind =>
          rw [rest] at past
          by_cases same : c = d
          · simp only [if_pos same] at past
            obtain ⟨shape, groups⟩ := past_rest past
            exact ⟨by rw [same, List.cons_append, ← shape], groups⟩
          · simp only [if_neg same] at past
            cases past

/-- A captured text is read once more. -/
theorem mem_run_again {number : Nat} {s t : Place} (mem : t ∈ (again number).run s) :
    ∃ text, s.groups.lookup number = some text ∧ s.rest = text ++ t.rest ∧
      t.groups = s.groups := by
  obtain ⟨text, captured, past⟩ := Option.bind_eq_some_iff.mp (Option.mem_toList.mp mem)
  exact ⟨text, captured, past_rest past⟩

end Pattern

end OpsAssist.Theory
