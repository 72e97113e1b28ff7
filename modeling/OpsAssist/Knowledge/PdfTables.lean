/-
# OpsAssist.Knowledge.PdfTables -- table rows that carry their own labels

The geometry of a page finds the tables; a dictionary keyed by text without blanks carries
their rows to the lines of the layout extraction.  `roles` says what each visual line is,
with no dictionary, and `tables_faithful_iff` when the rendering follows it: where the last
table line with a layout line's key has that line's fate.
Pole: `rows_run_together`, two rows with one key.

The normalization form NFKC is a parameter.
-/
import Mathlib.Algebra.Order.Ring.Rat
import Mathlib.Data.List.Induction
import OpsAssist.Theory.Text

namespace OpsAssist.PdfTables

set_option autoImplicit false

open Theory Text

/-! ## Pages -/

/-- The text runs of a baseline from left to right, each with where it starts. -/
abbrev VisualLine := List (ℚ × List Char)

def MIN_COLUMNS : Nat := 3
def X_TOLERANCE : ℚ := 3

def sameColumns (a b : VisualLine) : Bool :=
  a.length == b.length && (a.zip b).all fun p => decide (|p.1.1 - p.2.1| ≤ X_TOLERANCE)

def cellsOf (line : VisualLine) : List (List Char) := line.map Prod.snd

/-- The rendering of a data row. -/
def renderRow (names cells : List (List Char)) : List Char :=
  cells.head?.getD [] ++ ": ".toList ++
    "; ".toList.intercalate (List.zipWith (fun n v => n ++ " = ".toList ++ v)
      (names.drop 1) (cells.drop 1)) ++
    ['.']

section

variable (nfkc : List Char → List Char)

/-- `_squash` -/
def squash (text : List Char) : List Char := (nfkc text).filter fun c => !isSpace c

/-- A dictionary, the last assignment first. -/
abbrev Rendered := List (List Char × Option (List Char))

/-- The lines under a header that are data rows of its table. -/
def dataRows (header : VisualLine) (rest : List VisualLine) : List VisualLine :=
  if MIN_COLUMNS ≤ header.length then rest.takeWhile (sameColumns header) else []

/-- The loop of `table_rows`; every round reads a line, so as many rounds as there are
lines are enough. -/
def tableRowsFrom : Nat → List VisualLine → Rendered → Rendered
  | 0, _, rendered => rendered
  | _, [], rendered => rendered
  | rounds + 1, header :: rest, rendered =>
      let rows := dataRows header rest
      -- a header alone is not a table
      if rows = [] then tableRowsFrom rounds rest rendered
      else
        let names := cellsOf header
        tableRowsFrom rounds (rest.drop rows.length)
          (rows.foldl
            (fun rendered row =>
              (squash nfkc (cellsOf row).flatten, some (renderRow names (cellsOf row))) :: rendered)
            ((squash nfkc names.flatten, none) :: rendered))

/-- `table_rows`, of a page's visual lines. -/
def tableRows (lines : List VisualLine) : Rendered := tableRowsFrom nfkc lines.length lines []

/-- What becomes of one line of the layout extraction. -/
def renderLine (rows : Rendered) (line : List Char) : List (List Char) :=
  let key := squash nfkc line
  if key = [] then [line]
  else
    match rows.lookup key with
    | none => [line]
    | some none => []
    | some (some text) => [[], text, []]

/-- `_render_tables` -/
def renderTables (lines : List (List Char)) (rows : Rendered) : List (List Char) :=
  if rows = [] then lines else lines.flatMap (renderLine nfkc rows)

/-- Line by line, also without a table. -/
theorem renderTables_eq (lines : List (List Char)) (rows : Rendered) :
    renderTables nfkc lines rows = lines.flatMap (renderLine nfkc rows) := by
  unfold renderTables
  split
  · rename_i none
    have kept : ∀ line ∈ lines, renderLine nfkc rows line = [line] := by
      intro line _
      unfold renderLine
      rw [none]
      dsimp only
      split <;> rfl
    rw [List.flatMap_congr kept]
    simp
  · rfl

end

/-! ## What the lines of a page are -/

/-- What a visual line is: the header of a table, a data row under these column names, or
none of a table. -/
inductive Role where
  | prose
  | header
  | row (names : List (List Char))
deriving DecidableEq

def rolesFrom : Nat → List VisualLine → List Role
  | 0, _ => []
  | _, [] => []
  | rounds + 1, header :: rest =>
      let rows := dataRows header rest
      if rows = [] then .prose :: rolesFrom rounds rest
      else
        .header :: (rows.map fun _ => .row (cellsOf header)) ++
          rolesFrom rounds (rest.drop rows.length)

/-- The roles of the lines of a page, in order. -/
def roles (lines : List VisualLine) : List Role := rolesFrom lines.length lines

theorem dataRows_length (header : VisualLine) (rest : List VisualLine) :
    (dataRows header rest).length ≤ rest.length ∧
      rest.take (dataRows header rest).length = dataRows header rest := by
  unfold dataRows
  split
  · have shape : rest =
        rest.takeWhile (sameColumns header) ++ rest.dropWhile (sameColumns header) :=
      List.takeWhile_append_dropWhile.symm
    have lengths := congrArg List.length shape
    rw [List.length_append] at lengths
    refine ⟨by omega, ?_⟩
    have taken := @List.take_left _ (rest.takeWhile (sameColumns header))
      (rest.dropWhile (sameColumns header))
    rwa [← shape] at taken
  · exact ⟨Nat.zero_le _, rfl⟩

/-- Every line has one role. -/
theorem rolesFrom_length : ∀ (rounds : Nat) (lines : List VisualLine), lines.length ≤ rounds →
    (rolesFrom rounds lines).length = lines.length
  | 0, lines, short => by
      rw [List.length_eq_zero_iff.mp (Nat.le_zero.mp short)]
      rfl
  | rounds + 1, [], _ => rfl
  | rounds + 1, header :: rest, short => by
      rw [List.length_cons] at short
      rw [rolesFrom]
      split
      · rw [List.length_cons, List.length_cons, rolesFrom_length rounds rest (by omega)]
      · have bound := (dataRows_length header rest).1
        rw [List.length_append, List.length_cons, List.length_map,
          rolesFrom_length rounds _ (by rw [List.length_drop]; omega), List.length_drop,
          List.length_cons]
        omega

/-- The key and the fate of a table line: none of the text, or its rendering. -/
def entry (nfkc : List Char → List Char) (line : VisualLine × Role) :
    Option (List Char × Option (List Char)) :=
  match line.2 with
  | .prose => none
  | .header => some (squash nfkc (cellsOf line.1).flatten, none)
  | .row names =>
      some (squash nfkc (cellsOf line.1).flatten, some (renderRow names (cellsOf line.1)))

/-- The lines of a page with their roles. -/
def told (lines : List VisualLine) : List (VisualLine × Role) := lines.zip (roles lines)

theorem foldl_cons_reverse {α β : Type} (f : α → β) : ∀ (l : List α) (start : List β),
    l.foldl (fun made a => f a :: made) start = (l.map f).reverse ++ start
  | [], _ => rfl
  | a :: l, start => by
      rw [List.foldl_cons, foldl_cons_reverse f l, List.map_cons, List.reverse_cons,
        List.append_assoc, List.singleton_append]

theorem entries_rows (nfkc : List Char → List Char) (names : List (List Char)) :
    ∀ rows : List VisualLine,
      (rows.zip (rows.map fun _ => Role.row names)).filterMap (entry nfkc) =
        rows.map fun row =>
          (squash nfkc (cellsOf row).flatten, some (renderRow names (cellsOf row)))
  | [] => rfl
  | row :: rows => by
      rw [List.map_cons, List.map_cons, List.zip_cons_cons, ← entries_rows nfkc names rows]
      rfl

/-- The lines of a table and those behind it, with their roles. -/
theorem zip_table (header : VisualLine) (rows : List VisualLine) (names : List (List Char))
    (behind : List VisualLine) (others : List Role) :
    (header :: (rows ++ behind)).zip
        (Role.header :: rows.map (fun _ => Role.row names) ++ others) =
      (header, Role.header) :: (rows.zip (rows.map fun _ => Role.row names) ++
        behind.zip others) := by
  rw [List.cons_append, List.zip_cons_cons, List.zip_append (by rw [List.length_map])]

/-- The loop assigns the entries of the lines in order. -/
theorem tableRowsFrom_eq (nfkc : List Char → List Char) : ∀ (rounds : Nat)
    (lines : List VisualLine) (rendered : Rendered), lines.length ≤ rounds →
      tableRowsFrom nfkc rounds lines rendered =
        ((lines.zip (rolesFrom rounds lines)).filterMap (entry nfkc)).reverse ++ rendered
  | 0, lines, rendered, short => by
      rw [List.length_eq_zero_iff.mp (Nat.le_zero.mp short)]
      rfl
  | rounds + 1, [], rendered, _ => rfl
  | rounds + 1, header :: rest, rendered, short => by
      rw [List.length_cons] at short
      rw [tableRowsFrom, rolesFrom]
      dsimp only
      by_cases alone : dataRows header rest = []
      · rw [if_pos alone, if_pos alone, tableRowsFrom_eq nfkc rounds rest rendered (by omega)]
        rfl
      · obtain ⟨bound, taken⟩ := dataRows_length header rest
        have later := tableRowsFrom_eq nfkc rounds (rest.drop (dataRows header rest).length)
        have split : dataRows header rest ++ rest.drop (dataRows header rest).length = rest := by
          conv_lhs => rw [← taken, List.length_take, Nat.min_eq_left bound]
          exact List.take_append_drop _ _
        have zipped := zip_table header (dataRows header rest) (cellsOf header)
          (rest.drop (dataRows header rest).length)
          (rolesFrom rounds (rest.drop (dataRows header rest).length))
        rw [split] at zipped
        rw [if_neg alone, if_neg alone, zipped, foldl_cons_reverse,
          later _ (by rw [List.length_drop]; omega), List.filterMap_cons, List.filterMap_append,
          entries_rows]
        simp [entry]

theorem tableRows_eq (nfkc : List Char → List Char) (lines : List VisualLine) :
    tableRows nfkc lines = ((told lines).filterMap (entry nfkc)).reverse := by
  unfold tableRows told roles
  rw [tableRowsFrom_eq nfkc _ _ _ (Nat.le_refl _), List.append_nil]

/-! ## What a key was last given -/

section

variable {α κ ν : Type} [BEq κ] [LawfulBEq κ] {f : α → Option (κ × ν)} {key : κ}

theorem lookup_none_iff {l : List α} :
    (l.filterMap f).reverse.lookup key = none ↔ ∀ a ∈ l, ∀ e, f a = some e → e.1 ≠ key := by
  rw [List.lookup_eq_none_iff]
  simp only [List.mem_reverse, List.mem_filterMap, bne_iff_ne]
  constructor
  · intro none a mem e given same
    exact none e ⟨a, mem, given⟩ same.symm
  · rintro none e ⟨a, mem, given⟩ same
    exact none a mem e given same.symm

/-- What a dictionary written in order holds for a key is what it was last given. -/
theorem lookup_last_iff {v : ν} {l : List α} :
    (l.filterMap f).reverse.lookup key = some v ↔
      ∃ pre a post, l = pre ++ a :: post ∧ f a = some (key, v) ∧
        ∀ b ∈ post, ∀ e, f b = some e → e.1 ≠ key := by
  induction l using List.reverseRec with
  | nil => simp
  | append_singleton l z ih =>
      have step : ((l ++ [z]).filterMap f).reverse.lookup key = some v ↔
          f z = some (key, v) ∨ (∀ e, f z = some e → e.1 ≠ key) ∧
            (l.filterMap f).reverse.lookup key = some v := by
        rw [List.filterMap_append, List.reverse_append]
        cases given : f z with
        | none => simp [given]
        | some e =>
            obtain ⟨k, w⟩ := e
            by_cases same : key = k
            · subst same
              simp [given]
            · have other : (key == k) = false := beq_eq_false_iff_ne.mpr same
              simp [given, List.lookup_cons, other, Ne.symm same]
      rw [step, ih]
      constructor
      · rintro (given | ⟨free, pre, a, post, rfl, given, later⟩)
        · exact ⟨l, z, [], rfl, given, nofun⟩
        · refine ⟨pre, a, post ++ [z], by simp, given, ?_⟩
          intro b mem
          rcases List.mem_append.mp mem with inner | last
          · exact later b inner
          · rw [List.mem_singleton.mp last]
            exact free
      · rintro ⟨pre, a, post, split, given, later⟩
        rcases List.eq_nil_or_concat post with rfl | ⟨front, last, rfl⟩
        · obtain ⟨-, same⟩ := List.append_inj' split rfl
          rw [(List.cons.inj same).1]
          exact .inl given
        · rw [List.concat_eq_append] at later
          rw [List.concat_eq_append, ← List.cons_append, ← List.append_assoc] at split
          obtain ⟨shape, same⟩ := List.append_inj' split rfl
          rw [(List.cons.inj same).1]
          refine .inr ⟨later last (by simp), pre, a, front, shape, given, ?_⟩
          exact fun b mem => later b (List.mem_append_left _ mem)

end

/-! ## Faithful rendering -/

section

variable (nfkc : List Char → List Char)

/-- A layout line with the visual line it is of. -/
abbrev LayoutLine := List Char × Nat

/-- What is to become of a layout line: a data row carries its own labels, a header goes,
any other line stays. -/
def expected (lines : List VisualLine) (l : LayoutLine) : List (List Char) :=
  match (told lines)[l.2]? with
  | some (line, .row names) => [[], renderRow names (cellsOf line), []]
  | some (_, .header) => []
  | _ => [l.1]

def Faithful (lines : List VisualLine) (layout : List LayoutLine) : Prop :=
  ∀ l ∈ layout, renderLine nfkc (tableRows nfkc lines) l.1 = expected lines l

/-- No table line takes a layout line for another: the last table line with its key, if it
is of a table, has its fate, and there is none if it is not. -/
def Unmistaken (lines : List VisualLine) (l : LayoutLine) : Prop :=
  match (told lines)[l.2]?.bind (entry nfkc) with
  | none => squash nfkc l.1 = [] ∨
      ∀ other ∈ told lines, ∀ e, entry nfkc other = some e → e.1 ≠ squash nfkc l.1
  | some own => squash nfkc l.1 ≠ [] ∧
      ∃ pre last post, told lines = pre ++ last :: post ∧
        entry nfkc last = some (squash nfkc l.1, own.2) ∧
        ∀ other ∈ post, ∀ e, entry nfkc other = some e → e.1 ≠ squash nfkc l.1

/-- The lines of a fate: none given, none of the text, or the rendering. -/
def shown (line : List Char) : Option (Option (List Char)) → List (List Char)
  | none => [line]
  | some none => []
  | some (some text) => [[], text, []]

theorem shown_injective {line : List Char} {a b : Option (Option (List Char))}
    (same : shown line a = shown line b) : a = b := by
  match a, b, same with
  | none, none, _ => rfl
  | some none, some none, _ => rfl
  | some (some x), some (some y), same =>
      have := (List.cons.inj (List.cons.inj same).2).1
      rw [this]

theorem renderLine_eq (rows : Rendered) (line : List Char) :
    renderLine nfkc rows line =
      shown line (if squash nfkc line = [] then none else rows.lookup (squash nfkc line)) := by
  unfold renderLine
  dsimp only
  split
  · rfl
  · cases rows.lookup (squash nfkc line) with
    | none => rfl
    | some fate => cases fate <;> rfl

theorem expected_eq (lines : List VisualLine) (l : LayoutLine) :
    expected lines l = shown l.1 (((told lines)[l.2]?.bind (entry nfkc)).map Prod.snd) := by
  unfold expected
  cases (told lines)[l.2]? with
  | none => rfl
  | some t =>
      obtain ⟨line, role⟩ := t
      cases role <;> rfl

/-- One line. -/
theorem faithful_line_iff (lines : List VisualLine) (l : LayoutLine) :
    renderLine nfkc (tableRows nfkc lines) l.1 = expected lines l ↔ Unmistaken nfkc lines l := by
  have fates : renderLine nfkc (tableRows nfkc lines) l.1 = expected lines l ↔
      (if squash nfkc l.1 = [] then none else (tableRows nfkc lines).lookup (squash nfkc l.1)) =
        ((told lines)[l.2]?.bind (entry nfkc)).map Prod.snd := by
    rw [renderLine_eq, expected_eq nfkc]
    exact ⟨shown_injective, fun same => by rw [same]⟩
  rw [fates, tableRows_eq]
  unfold Unmistaken
  by_cases empty : squash nfkc l.1 = []
  · rw [if_pos empty]
    cases (told lines)[l.2]?.bind (entry nfkc) with
    | none => simp [empty]
    | some own => simp [empty]
  · rw [if_neg empty]
    cases (told lines)[l.2]?.bind (entry nfkc) with
    | none =>
        rw [Option.map_none, lookup_none_iff]
        simp [empty]
    | some own =>
        rw [Option.map_some, lookup_last_iff]
        simp [empty]

/-- **Tables are rendered faithfully exactly where no layout line is mistaken for another
table line.** -/
theorem tables_faithful_iff (lines : List VisualLine) (layout : List LayoutLine) :
    renderTables nfkc (layout.map Prod.fst) (tableRows nfkc lines) =
        layout.flatMap (fun l => renderLine nfkc (tableRows nfkc lines) l.1) ∧
      (Faithful nfkc lines layout ↔ ∀ l ∈ layout, Unmistaken nfkc lines l) := by
  refine ⟨?_, forall₂_congr fun l _ => faithful_line_iff nfkc lines l⟩
  rw [renderTables_eq, List.flatMap_map]

end

/-! ## Poles -/

/-- A text is the cells of a line, blanks between them. -/
def Spaced : List Char → List (List Char) → Prop
  | text, [] => ∀ c ∈ text, isSpace c = true
  | text, cell :: cells => ∃ lead rest, text = lead ++ (cell ++ rest) ∧
      (∀ c ∈ lead, isSpace c = true) ∧ (cells ≠ [] → rest.head?.any isSpace = true) ∧
      Spaced rest cells

/-- Every layout line is of a visual line of the page. -/
def IsLayout (lines : List VisualLine) (layout : List LayoutLine) : Prop :=
  ∀ l ∈ layout, ∃ line, lines[l.2]? = some line ∧ Spaced l.1 (cellsOf line)

/-- Two rows of one table with the same text but for blanks. -/
def polePage : List VisualLine :=
  [[(0, ['A']), (10, ['B']), (20, ['C'])], [(0, ['1']), (10, ['2', '3']), (20, ['4'])],
    [(0, ['1', '2']), (10, ['3']), (20, ['4'])]]

def poleLayout : List LayoutLine := [(['1', ' ', '2', '3', ' ', '4'], 1)]

/-- The first row is rendered as the second. -/
theorem rows_run_together :
    ¬∀ lines layout, IsLayout lines layout → Faithful id lines layout := by
  intro all
  have laid : IsLayout polePage poleLayout := by
    intro l mem
    rw [List.mem_singleton.mp mem]
    have blank : ∀ c ∈ [' '], isSpace c = true := by simp [isSpace]
    refine ⟨_, rfl, [], [' ', '2', '3', ' ', '4'], rfl, by simp, fun _ => by decide, ?_⟩
    refine ⟨[' '], [' ', '4'], rfl, blank, fun _ => by decide, ?_⟩
    exact ⟨[' '], [], rfl, blank, fun h => absurd rfl h, by simp [Spaced]⟩
  have first := all polePage poleLayout laid _ (List.mem_singleton.mpr rfl)
  exact absurd first (by decide +kernel)

end OpsAssist.PdfTables
