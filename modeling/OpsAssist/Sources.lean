/-
# OpsAssist.Sources -- the sources read back from a prompt

What a prompt shows of a chunk is found again by its tags: a title, a reference, a date or
a section, whatever it contains, neither opens an element nor closes one.

`sources_read_back`: the elements are as many as the chunks, numbered in order, and what
they show is recovered by cutting at the tags and unescaping.
-/
import OpsAssist.Rag
import OpsAssist.Theory.Markup
import OpsAssist.Theory.Numeral

namespace OpsAssist

set_option autoImplicit false

open Theory Theory.Text Theory.Markup

/-! ## Reading back -/

/-- What an element shows of its chunk. -/
structure Shown where
  title : List Char
  ref : List Char
  updated : List Char
  context : List Char

def RetrievedChunk.shown (c : RetrievedChunk) : Shown where
  title := c.title.toList
  ref := c.stableRef.toList
  updated := c.docUpdatedAt.toList
  context := c.context.toList

/-- The first element of a text with its number, and what stands behind it.  The line feed
before the closing tag is not part of the section. -/
def readSource (text : List Char) : Option ((List Char × Shown) × List Char) := do
  let (_, text) ← cut "<source id=\"".toList text
  let (number, text) ← cut "\" title=\"".toList text
  let (title, text) ← cut "\" ref=\"".toList text
  let (ref, text) ← cut "\" updated=\"".toList text
  let (updated, text) ← cut "\">\n".toList text
  let (context, rest) ← cut "</source>".toList text
  return ((number, {
    title := unescape title, ref := unescape ref, updated := unescape updated
    context := unescape context.dropLast }), rest)

/-- The elements of a text; each takes at least one character. -/
def readSources : Nat → List Char → List (List Char × Shown)
  | 0, _ => []
  | bound + 1, text =>
      match readSource text with
      | none => []
      | some (source, rest) => source :: readSources bound rest

/-! ## One element -/

/-- An element as characters. -/
def sourceChars (number : Nat) (c : RetrievedChunk) : List Char :=
  "<source id=\"".toList ++ ((toString number).toList ++ ("\" title=\"".toList ++
    (escape true c.title.toList ++ ("\" ref=\"".toList ++ (escape true c.stableRef.toList ++
      ("\" updated=\"".toList ++ (escape true c.docUpdatedAt.toList ++ ("\">\n".toList ++
        ((escape false c.context.toList ++ ['\n']) ++ "</source>".toList)))))))))

theorem toList_htmlEscape (quote : Bool) (text : String) :
    (htmlEscape quote text).toList = escape quote text.toList := by
  rw [htmlEscape, String.toList_ofList]
  rfl

theorem toList_renderSource (number : Nat) (c : RetrievedChunk) :
    (renderSource number c).text.toList = sourceChars number c := by
  have last : "\n</source>".toList = ['\n'] ++ "</source>".toList := by simp
  simp only [renderSource, Traced.quoting, attr, String.toList_append, toList_htmlEscape, last]
  unfold sourceChars
  simp only [List.append_assoc]

/-- A number is written in digits. -/
theorem digit_of_mem_toString {number : Nat} {c : Char} (mem : c ∈ (toString number).toList) :
    c.isDigit = true := by
  have written : (toString number).toList = Numeral.decimal number := String.toList_ofList
  rw [written] at mem
  exact Numeral.isDigit_of_mem_decimal mem

/-- An element is read back behind whatever opens none. -/
theorem readSource_sourceChars {gap : List Char} (apart : '<' ∉ gap) (number : Nat)
    (c : RetrievedChunk) (rest : List Char) :
    readSource (gap ++ (sourceChars number c ++ rest)) =
      some (((toString number).toList, c.shown), rest) := by
  have digits : '"' ∉ (toString number).toList := fun mem =>
    absurd (digit_of_mem_toString mem) (by decide)
  have section_ : '<' ∉ escape false c.context.toList ++ ['\n'] := by
    intro mem
    rcases List.mem_append.mp mem with inside | last
    · exact opening_not_mem false _ inside
    · exact absurd (List.mem_singleton.mp last) (by decide)
  have opening (after : List Char) := @cut_append "<source id=\"".toList '<' (by simp) after _ apart
  have title (after : List Char) := @cut_append "\" title=\"".toList '"' (by simp) after _ digits
  have ref (after : List Char) :=
    @cut_append "\" ref=\"".toList '"' (by simp) after _ (quote_not_mem c.title.toList)
  have updated (after : List Char) :=
    @cut_append "\" updated=\"".toList '"' (by simp) after _ (quote_not_mem c.stableRef.toList)
  have body (after : List Char) :=
    @cut_append "\">\n".toList '"' (by simp) after _ (quote_not_mem c.docUpdatedAt.toList)
  have closing (after : List Char) := @cut_append "</source>".toList '<' (by simp) after _ section_
  simp only [List.append_assoc] at closing
  unfold readSource sourceChars
  simp only [List.append_assoc]
  simp only [opening, Option.bind_eq_bind, Option.bind_some]
  simp only [title, Option.bind_some]
  simp only [ref, Option.bind_some]
  simp only [updated, Option.bind_some]
  simp only [body, Option.bind_some]
  simp only [closing, Option.bind_some]
  simp only [List.dropLast_concat, unescape_escape]
  rfl

/-- `<source ` and `</source>` -/
def OPENING : List Char := ['<', 's', 'o', 'u', 'r', 'c', 'e', ' ']
def CLOSING : List Char := ['<', '/', 's', 'o', 'u', 'r', 'c', 'e', '>']

/-- An element has two brackets, that of its opening tag and that of its closing tag. -/
theorem sourceChars_shape (number : Nat) (c : RetrievedChunk) :
    ∃ inner, '<' ∉ inner ∧ sourceChars number c = OPENING ++ (inner ++ CLOSING) := by
  refine ⟨"id=\"".toList ++ ((toString number).toList ++ ("\" title=\"".toList ++
    (escape true c.title.toList ++ ("\" ref=\"".toList ++ (escape true c.stableRef.toList ++
      ("\" updated=\"".toList ++ (escape true c.docUpdatedAt.toList ++ ("\">\n".toList ++
        (escape false c.context.toList ++ ['\n']))))))))), ?_, ?_⟩
  · have digits : '<' ∉ (toString number).toList := fun mem =>
      absurd (digit_of_mem_toString mem) (by decide)
    simp only [List.mem_append, not_or]
    refine ⟨by simp, digits, by simp, opening_not_mem _ _, by simp, opening_not_mem _ _, by simp,
      opening_not_mem _ _, by simp, opening_not_mem _ _, by simp⟩
  · have opens : "<source id=\"".toList = OPENING ++ "id=\"".toList := by simp [OPENING]
    have closes : "</source>".toList = CLOSING := by simp [CLOSING]
    unfold sourceChars
    simp only [opens, closes, List.append_assoc]

/-- Each tag stands once in an element. -/
theorem occurrences_source {gap : List Char} (apart : '<' ∉ gap) (number : Nat)
    (c : RetrievedChunk) (rest : List Char) :
    occurrences OPENING (gap ++ (sourceChars number c ++ rest)) =
        occurrences OPENING rest + 1 ∧
      occurrences CLOSING (gap ++ (sourceChars number c ++ rest)) =
        occurrences CLOSING rest + 1 := by
  obtain ⟨inner, free, shape⟩ := sourceChars_shape number c
  have whole : gap ++ (sourceChars number c ++ rest) =
      gap ++ ('<' :: ((OPENING.tail ++ inner) ++ ('<' :: (CLOSING.tail ++ rest)))) := by
    rw [shape]
    simp only [OPENING, CLOSING, List.cons_append, List.nil_append, List.append_assoc,
      List.tail_cons]
  have first : '<' ∉ OPENING.tail ++ inner := by
    rw [List.mem_append, not_or]
    exact ⟨by decide, free⟩
  have second : '<' ∉ CLOSING.tail := by decide
  rw [whole]
  constructor
  · rw [occurrences_append rfl _ apart, occurrences_tag rfl first, occurrences_tag rfl second]
    simp [OPENING, CLOSING, Nat.add_comm]
  · rw [occurrences_append rfl _ apart, occurrences_tag rfl first, occurrences_tag rfl second]
    simp [OPENING, CLOSING, Nat.add_comm]

/-! ## All elements -/

/-- The elements of chunks numbered from a number on. -/
def sourcesFrom : Nat → List RetrievedChunk → List Char
  | _, [] => []
  | number, [c] => sourceChars number c
  | number, c :: d :: rest =>
      sourceChars number c ++ (['\n', '\n'] ++ sourcesFrom (number + 1) (d :: rest))

theorem toList_renderSources (chunks : List RetrievedChunk) :
    (renderSources chunks).text.toList = sourcesFrom 1 chunks := by
  have from_ : ∀ (rest : List RetrievedChunk) (k : Nat),
      (String.intercalate "\n\n" (((rest.zipIdx k).map fun pair =>
        renderSource (pair.2 + 1) pair.1).map Traced.text)).toList = sourcesFrom (k + 1) rest := by
    intro rest
    induction rest with
    | nil =>
        intro k
        simp [sourcesFrom]
    | cons c rest ih =>
        intro k
        cases rest with
        | nil =>
            simp only [List.zipIdx_cons, List.zipIdx_nil, List.map_cons, List.map_nil,
              String.intercalate_singleton, toList_renderSource, sourcesFrom]
        | cons d rest =>
            have later := ih (k + 1)
            simp only [List.zipIdx_cons, List.map_cons] at later ⊢
            rw [String.intercalate_cons_cons, String.toList_append, String.toList_append, later,
              toList_renderSource, List.append_assoc]
            simp [sourcesFrom]
  exact from_ chunks 0

/-- What is read back of chunks numbered from a number on. -/
def shownFrom (number : Nat) (chunks : List RetrievedChunk) : List (List Char × Shown) :=
  (chunks.zipIdx number).map fun pair => ((toString pair.2).toList, pair.1.shown)

theorem readSources_none : ∀ {bound : Nat} {text : List Char}, '<' ∉ text →
    readSources bound text = []
  | 0, _, _ => rfl
  | bound + 1, text, free => by
      have missed := @cut_none "<source id=\"".toList '<' (by simp) text free
      unfold readSources readSource
      simp only [missed, Option.bind_eq_bind, Option.bind_none]

/-- Between two elements there is no bracket. -/
theorem sourcesFrom_cons (number : Nat) (c : RetrievedChunk) (rest : List RetrievedChunk) :
    ∃ gap, '<' ∉ gap ∧
      sourcesFrom number (c :: rest) =
        sourceChars number c ++ (gap ++ sourcesFrom (number + 1) rest) := by
  cases rest with
  | nil => exact ⟨[], List.not_mem_nil, by simp [sourcesFrom]⟩
  | cons d rest => exact ⟨['\n', '\n'], by decide, rfl⟩

/-- All elements are read back, and no tags are found but theirs. -/
theorem sources_read : ∀ (chunks : List RetrievedChunk) (number bound : Nat) {gap : List Char},
    '<' ∉ gap → chunks.length ≤ bound →
    readSources bound (gap ++ sourcesFrom number chunks) = shownFrom number chunks ∧
      occurrences OPENING (gap ++ sourcesFrom number chunks) = chunks.length ∧
      occurrences CLOSING (gap ++ sourcesFrom number chunks) = chunks.length
  | [], number, bound, gap, apart, _ => by
      rw [sourcesFrom, occurrences_append rfl _ apart, occurrences_append rfl _ apart,
        List.append_nil]
      exact ⟨readSources_none apart, rfl, rfl⟩
  | c :: rest, number, bound + 1, gap, apart, enough => by
      obtain ⟨between, free, shape⟩ := sourcesFrom_cons number c rest
      obtain ⟨read, opened, closed⟩ :=
        sources_read rest (number + 1) bound free (Nat.le_of_succ_le_succ enough)
      obtain ⟨opens, closes⟩ :=
        occurrences_source apart number c (between ++ sourcesFrom (number + 1) rest)
      rw [shape, opens, closes, opened, closed, readSources,
        readSource_sourceChars apart number c]
      exact ⟨congrArg (_ :: ·) read, rfl, rfl⟩

/-- The text depends on what is shown alone. -/
theorem sourcesFrom_congr : ∀ {chunks other : List RetrievedChunk} (number : Nat),
    chunks.map RetrievedChunk.shown = other.map RetrievedChunk.shown →
    sourcesFrom number chunks = sourcesFrom number other
  | [], [], _, _ => rfl
  | c :: rest, d :: rest', number, same => by
      obtain ⟨first, later⟩ := List.cons.inj same
      have element : sourceChars number c = sourceChars number d := by
        simp only [RetrievedChunk.shown, Shown.mk.injEq] at first
        obtain ⟨title, ref, updated, context⟩ := first
        unfold sourceChars
        simp only [title, ref, updated, context]
      have behind := sourcesFrom_congr (number + 1) later
      cases rest with
      | nil =>
          cases rest' with
          | nil => exact element
          | cons e more => cases later
      | cons e more =>
          cases rest' with
          | nil => cases later
          | cons f more' =>
              unfold sourcesFrom
              rw [element, behind]

theorem snd_shownFrom (number : Nat) (chunks : List RetrievedChunk) :
    (shownFrom number chunks).map Prod.snd = chunks.map RetrievedChunk.shown := by
  rw [shownFrom, List.map_map, ← List.zipIdx_map_fst number chunks, List.map_map,
    List.zipIdx_map_fst]
  rfl

/-- **A document cannot forge prompt structure.** -/
theorem sources_read_back (chunks other : List RetrievedChunk) :
    let text := (renderSources chunks).text.toList
    occurrences OPENING text = chunks.length ∧
      occurrences CLOSING text = chunks.length ∧
      readSources text.length text = shownFrom 1 chunks ∧
      ((renderSources other).text = (renderSources chunks).text ↔
        other.map RetrievedChunk.shown = chunks.map RetrievedChunk.shown) := by
  have read : ∀ (cs : List RetrievedChunk),
      readSources (renderSources cs).text.toList.length (renderSources cs).text.toList =
          shownFrom 1 cs ∧
        occurrences OPENING (renderSources cs).text.toList = cs.length ∧
        occurrences CLOSING (renderSources cs).text.toList = cs.length := by
    intro cs
    have counted := (sources_read cs 1 cs.length List.not_mem_nil (Nat.le_refl _)).2.1
    have short := occurrences_le_length OPENING (sourcesFrom 1 cs)
    rw [toList_renderSources]
    rw [List.nil_append] at counted
    exact sources_read cs 1 _ List.not_mem_nil (by omega)
  obtain ⟨back, opened, closed⟩ := read chunks
  refine ⟨opened, closed, back, ?_, ?_⟩
  · intro same
    rw [← snd_shownFrom 1 other, ← snd_shownFrom 1 chunks, ← back, ← (read other).1, same]
  · intro same
    refine String.toList_injective ?_
    rw [toList_renderSources, toList_renderSources]
    exact sourcesFrom_congr 1 same

end OpsAssist
