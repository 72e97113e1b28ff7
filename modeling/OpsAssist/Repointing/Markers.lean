/-
# OpsAssist.Repointing.Markers -- the markers of texts put together

The pieces of a text are those before a bracket and those from there on
(`pieces_before`), so a bracket put between two texts keeps the markers of both
(`markerNumbers_bracket`).  `blanked` is a text as its figures are read, a blank for every
marker; `strays` counts the brackets that open no marker.
-/
import OpsAssist.Citations
import OpsAssist.Theory.Numeral
import OpsAssist.Theory.Scanning
import OpsAssist.Theory.Words

namespace OpsAssist.Repointing

set_option autoImplicit false

open Theory Theory.Pattern Theory.Text

/-! ## Brackets -/

/-- Digits in brackets. -/
def bracket (ds : List Char) : List Char := '[' :: ds ++ [']']

/-- A run of digits, of any length. -/
def Decimals (ds : List Char) : Prop := ∀ d ∈ ds, isDecimal d = true

instance (ds : List Char) : Decidable (Digits ds) :=
  inferInstanceAs (Decidable ((ds.length = 1 ∨ ds.length = 2) ∧ ∀ d ∈ ds, isDecimal d = true))

theorem bracket_append (ds post : List Char) :
    bracket ds ++ post = '[' :: ds ++ ']' :: post := by
  simp [bracket]

theorem opening_notMem {ds : List Char} (numeral : Decimals ds) : '[' ∉ ds := by
  intro mem
  have digit := numeral _ mem
  rw [opening_not_decimal] at digit
  cases digit

/-- What stands before the first of a character is settled. -/
theorem before_first {z : Char} {a a' b b' : List Char} (free : z ∉ a) (free' : z ∉ a')
    (same : a ++ z :: b = a' ++ z :: b') : a = a' := by
  have front : ∀ {a b : List Char}, z ∉ a → (a ++ z :: b).takeWhile (· ≠ z) = a := by
    intro a b free
    have passes : ∀ c ∈ a, decide (c ≠ z) = true := fun c mem =>
      decide_eq_true fun at_z => free (at_z ▸ mem)
    rw [List.takeWhile_append_of_pos passes, List.takeWhile_cons_of_neg (by simp),
      List.append_nil]
  rw [← front free, same, front free']

/-- Two texts are the same as far as a bracket that both open, or as a whole. -/
def Agree (x y : List Char) : Prop :=
  x = y ∨ ∃ a b b', '[' ∉ a ∧ x = a ++ '[' :: b ∧ y = a ++ '[' :: b'

theorem agree_bracket (pre b b' : List Char) : Agree (pre ++ '[' :: b) (pre ++ '[' :: b') := by
  by_cases opens : '[' ∈ pre
  · obtain ⟨a, c, rfl, free⟩ := List.eq_append_cons_of_mem opens
    exact .inr ⟨a, c ++ '[' :: b, c ++ '[' :: b', free, by simp, by simp⟩
  · exact .inr ⟨pre, b, b', opens, rfl, rfl⟩

theorem Agree.trans {x y z : List Char} (first : Agree x y) (second : Agree y z) : Agree x z := by
  rcases first with rfl | ⟨a, b, b', free, rfl, rfl⟩
  · exact second
  · rcases second with rfl | ⟨a', c, c', free', same, rfl⟩
    · exact .inr ⟨a, b, b', free, rfl, rfl⟩
    · obtain rfl := before_first free free' same
      exact .inr ⟨a, b, c', free, rfl, rfl⟩

theorem Agree.around {x y : List Char} (same : Agree x y) (front back : List Char) :
    Agree (front ++ (x ++ back)) (front ++ (y ++ back)) := by
  rcases same with rfl | ⟨a, b, b', -, rfl, rfl⟩
  · exact .inl rfl
  · have within := agree_bracket (front ++ a) (b ++ back) (b' ++ back)
    simpa using within

/-! ## Pieces of a text -/

/-- What a text opens with is settled before the next bracket. -/
theorem markAt_before (c : Char) (b : List Char) : ∀ a : List Char,
    (markAt (c :: (a ++ '[' :: b))).map Prod.fst = (markAt (c :: a)).map Prod.fst
  | [] => by
      cases b with
      | nil => rfl
      | cons e b => simp [markAt, opening_not_decimal]
  | [d] => by
      by_cases opens : c = '[' ∧ isDecimal d = true
      · simp [markAt, opens, opening_not_decimal]
      · simp [markAt, opens]
  | [d, e] => by
      by_cases opens : c = '[' ∧ isDecimal d = true
      · by_cases closes : e = ']'
        · simp [markAt, opens, closes]
        · simp [markAt, opens, closes]
      · simp [markAt, opens]
  | d :: e :: f :: a => by
      by_cases opens : c = '[' ∧ isDecimal d = true
      · by_cases closes : e = ']'
        · simp [markAt, opens, closes]
        · by_cases second : isDecimal e = true ∧ f = ']'
          · simp [markAt, opens, closes, second]
          · simp [markAt, opens, closes, second]
      · simp [markAt, opens]

theorem markAt_agree (c : Char) {x y : List Char} (same : Agree x y)
    (missed : markAt (c :: x) = none) : markAt (c :: y) = none := by
  rcases same with rfl | ⟨a, b, b', -, rfl, rfl⟩
  · exact missed
  · have one := markAt_before c b a
    rw [missed] at one
    have other := (markAt_before c b' a).trans one.symm
    exact Option.map_eq_none_iff.mp other

/-- A text is cut at its markers in one way. -/
theorem scan_of_cut {text : List Char} {ps : List Piece} (cut : Cut text ps) :
    ∀ prior, MARKER.scan prior 0 text = ps := by
  induction cut with
  | nil => exact fun _ => rfl
  | @plain c rest ps missed _ ih =>
      intro prior
      have here := matchAt_marker prior (c :: rest)
      rw [missed] at here
      rw [scan_plain here, ih]
  | @found ds rest ps digits _ ih =>
      intro prior
      have here := matchAt_marker prior ('[' :: ds ++ ']' :: rest)
      rw [markAt_mark digits] at here
      have shape : '[' :: ds ++ ']' :: rest = '[' :: (ds ++ [']']) ++ rest := by simp
      rw [shape] at here ⊢
      rw [scan_found here rfl, ih]

theorem pieces_of_cut {text : List Char} {ps : List Piece} (cut : Cut text ps) :
    MARKER.pieces text = ps := scan_of_cut cut none

theorem cut_before {x : List Char} {qs : List Piece} (behind : Cut ('[' :: x) qs)
    {pre : List Char} {ps : List Piece} (front : Cut pre ps) :
    Cut (pre ++ '[' :: x) (ps ++ qs) := by
  induction front with
  | nil => exact behind
  | @plain c rest ps missed _ ih =>
      have still := markAt_before c x rest
      rw [missed] at still
      exact .plain (Option.map_eq_none_iff.mp still) ih
  | @found ds rest ps digits _ ih =>
      rw [List.append_assoc, List.cons_append, List.cons_append]
      exact .found digits ih

/-- **The pieces before a bracket and those from there on are the pieces of the text.** -/
theorem pieces_before (pre x : List Char) :
    MARKER.pieces (pre ++ '[' :: x) = MARKER.pieces pre ++ MARKER.pieces ('[' :: x) :=
  pieces_of_cut (cut_before (cut_pieces _) (cut_pieces _))

theorem cut_plain : ∀ {text rest : List Char} {ps : List Piece}, '[' ∉ text → Cut rest ps →
    Cut (text ++ rest) (text.map .plain ++ ps)
  | [], _, _, _, cut => cut
  | c :: text, rest, ps, free, cut => by
      have other : c ≠ '[' := fun same => free (by rw [same]; exact List.mem_cons_self)
      exact .plain (markAt_of_ne _ other)
        (cut_plain (fun mem => free (List.mem_cons_of_mem c mem)) cut)

/-- The pieces of a bracket with digits in it. -/
def bracketPieces (ds : List Char) : List Piece :=
  if Digits ds then [.found (markMatch ds)] else (bracket ds).map .plain

theorem cut_bracket {ds : List Char} (numeral : Decimals ds) {post : List Char}
    {ps : List Piece} (cut : Cut post ps) : Cut (bracket ds ++ post) (bracketPieces ds ++ ps) := by
  rw [bracketPieces]
  by_cases digits : Digits ds
  · rw [if_pos digits, bracket_append]
    exact .found digits cut
  · rw [if_neg digits, bracket_append]
    have inner : Cut (ds ++ ']' :: post) ((ds ++ [']']).map .plain ++ ps) := by
      have free : '[' ∉ ds ++ [']'] := by
        simp [opening_notMem numeral]
      have whole := cut_plain free cut
      rwa [List.append_assoc, List.singleton_append] at whole
    refine .plain ?_ inner
    cases mark : markAt ('[' :: (ds ++ ']' :: post)) with
    | none => rfl
    | some found =>
        -- a marker here would be these very digits
        obtain ⟨others, shape⟩ := @markAt_eq_some _ found.1 found.2 mark
        have same : ds ++ ']' :: post = found.1 ++ ']' :: found.2 := (List.cons.inj shape).2
        have closing : ∀ xs : List Char, Decimals xs → ']' ∉ xs := fun xs all mem => by
          have digit := all _ mem
          rw [closing_not_decimal] at digit
          cases digit
        obtain rfl := before_first (closing ds numeral) (closing found.1 others.2) same
        exact absurd others digits

theorem pieces_bracket {ds : List Char} (numeral : Decimals ds) (pre post : List Char) :
    MARKER.pieces (pre ++ (bracket ds ++ post)) =
      MARKER.pieces pre ++ (bracketPieces ds ++ MARKER.pieces post) := by
  have shape : pre ++ (bracket ds ++ post) = pre ++ '[' :: (ds ++ ']' :: post) := by
    rw [bracket_append]
    rfl
  rw [shape, pieces_before]
  congr 1
  have here := pieces_of_cut (cut_bracket numeral (cut_pieces post))
  rwa [bracket_append] at here

theorem pieces_free {text : List Char} (free : '[' ∉ text) :
    MARKER.pieces text = text.map .plain := by
  have whole := cut_plain free .nil
  rw [List.append_nil, List.append_nil] at whole
  exact pieces_of_cut whole

theorem found_of_cut {text : List Char} {ps : List Piece} (cut : Cut text ps) {m : Match}
    (mem : .found m ∈ ps) : ∃ ds, Digits ds ∧ m = markMatch ds := by
  induction cut with
  | nil => cases mem
  | plain _ _ ih => exact ih ((List.mem_cons.mp mem).resolve_left nofun)
  | found digits _ ih =>
      rcases List.mem_cons.mp mem with same | later
      · cases same
        exact ⟨_, digits, rfl⟩
      · exact ih later

theorem text_of_cut {text : List Char} {ps : List Piece} (cut : Cut text ps) :
    ps.flatMap Piece.text = text := by
  induction cut with
  | nil => rfl
  | plain _ _ ih =>
      rw [List.flatMap_cons, ih]
      rfl
  | found _ _ ih =>
      rw [List.flatMap_cons, ih]
      exact bracket_append _ _

/-! ## Numbers and figures' text -/

/-- A text with a blank for every marker. -/
def blanked (text : List Char) : List Char := MARKER.sub (fun _ => [' ']) text

/-- The brackets that open no marker. -/
def strays (text : List Char) : Nat := (blanked text).count '['

theorem blanked_eq (text : List Char) :
    blanked text = (MARKER.pieces text).flatMap (rewrite fun _ => [' ']) := sub_eq _ _ _

theorem markerNumbers_of (text : List Char) :
    markerNumbers text =
      ((MARKER.pieces text).filterMap matchOf).map fun m => intOf (m.group 1) := by
  rw [markerNumbers, findAll_eq]

theorem blanked_free {text : List Char} (free : '[' ∉ text) : blanked text = text := by
  rw [blanked_eq, pieces_free free, flatMap_plain]

theorem blanked_bracket {ds : List Char} (numeral : Decimals ds) (pre post : List Char) :
    blanked (pre ++ (bracket ds ++ post)) =
      blanked pre ++ ((if Digits ds then [' '] else bracket ds) ++ blanked post) := by
  rw [blanked_eq, pieces_bracket numeral, List.flatMap_append, List.flatMap_append,
    ← blanked_eq, ← blanked_eq, bracketPieces]
  by_cases digits : Digits ds
  · rw [if_pos digits, if_pos digits]
    rfl
  · rw [if_neg digits, if_neg digits, flatMap_plain]

theorem blanked_mark {ds : List Char} (digits : Digits ds) (pre post : List Char) :
    blanked (pre ++ (bracket ds ++ post)) = blanked pre ++ ' ' :: blanked post := by
  rw [blanked_bracket digits.2, if_pos digits]
  rfl

theorem strays_bracket {ds : List Char} (numeral : Decimals ds) (pre post : List Char) :
    strays (pre ++ (bracket ds ++ post)) =
      strays pre + ((if Digits ds then 0 else 1) + strays post) := by
  have one : (bracket ds).count '[' = 1 := by
    have none := List.count_eq_zero.mpr (opening_notMem numeral)
    simp [bracket, none]
  rw [strays, blanked_bracket numeral, List.count_append, List.count_append]
  by_cases digits : Digits ds
  · rw [if_pos digits, if_pos digits]
    rfl
  · rw [if_neg digits, if_neg digits, one]
    rfl

theorem markerNumbers_free {text : List Char} (free : '[' ∉ text) : markerNumbers text = [] := by
  rw [markerNumbers_of, pieces_free free, filterMap_plain]
  rfl

theorem markerNumbers_bracket {ds : List Char} (numeral : Decimals ds) (pre post : List Char) :
    markerNumbers (pre ++ (bracket ds ++ post)) =
      markerNumbers pre ++ ((if Digits ds then [intOf ds] else []) ++ markerNumbers post) := by
  simp only [markerNumbers_of, pieces_bracket numeral, List.filterMap_append, List.map_append]
  congr 2
  rw [bracketPieces]
  by_cases digits : Digits ds
  · rw [if_pos digits, if_pos digits]
    rfl
  · rw [if_neg digits, if_neg digits, filterMap_plain]
    rfl

theorem markerNumbers_mark {ds : List Char} (digits : Digits ds) (pre post : List Char) :
    markerNumbers (pre ++ (bracket ds ++ post)) =
      markerNumbers pre ++ intOf ds :: markerNumbers post := by
  rw [markerNumbers_bracket digits.2, if_pos digits]
  rfl

end OpsAssist.Repointing
