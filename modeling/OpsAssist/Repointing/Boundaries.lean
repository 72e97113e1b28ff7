/-
# OpsAssist.Repointing.Boundaries -- sentences that stay apart

`Parted` says where the boundaries of a text are: no boundary begins in a sentence, and the
one behind it is what stands there.  No edit moves a boundary (`parted_edited`): an edit
changes a text only behind a bracket, which no boundary reads across.
-/
import OpsAssist.Repointing.Edits

namespace OpsAssist.Repointing

set_option autoImplicit false

open Theory Theory.Pattern Theory.Text

/-! ## Parted texts -/

/-- The sentences of a text and the boundaries behind them, the character before the text
given. -/
inductive Parted : Option Char → List Char → List (List Char × List Char) → Prop where
  | last {prior : Option Char} {text : List Char} :
      SENTENCE_END.Misses prior text [] → Parted prior text [(text, [])]
  | next {prior : Option Char} {text b rest : List Char} {more : List (List Char × List Char)}
      {m : Match} : SENTENCE_END.Misses prior text (b ++ rest) →
      SENTENCE_END.taken { prior := text.getLast?.or prior, rest := b ++ rest } = some m →
      m.text = b → Parted (b.getLast?.or (text.getLast?.or prior)) rest more →
      Parted prior (text ++ (b ++ rest)) ((text, b) :: more)

theorem sentences_plain {s b : List Char} {more : List (List Char × List Char)}
    {ps : List Piece} (known : sentences ps = (s, b) :: more) : ∀ text : List Char,
    sentences (text.map .plain ++ ps) = (text ++ s, b) :: more
  | [] => known
  | c :: text => by
      rw [List.map_cons, List.cons_append, sentences, sentences_plain known text]
      rfl

theorem scan_boundary {prior : Option Char} {b rest : List Char} {m : Match}
    (found : SENTENCE_END.taken { prior, rest := b ++ rest } = some m) (whole : m.text = b) :
    SENTENCE_END.scan prior 0 (b ++ rest) =
      .found m :: SENTENCE_END.scan (b.getLast?.or prior) 0 rest := by
  obtain ⟨matched, nonempty⟩ := Option.filter_eq_some_iff.mp found
  cases b with
  | nil => exact absurd whole (of_decide_eq_true nonempty)
  | cons c b =>
      rw [scan_found matched whole, getLast?_cons_or]

/-- The sentences a scan finds are parted where it says. -/
theorem parted_scan : ∀ (size : Nat) (text : List Char) (prior : Option Char),
    text.length ≤ size → Parted prior text (sentences (SENTENCE_END.scan prior 0 text))
  | _, [], _, _ => .last trivial
  | size + 1, c :: rest, prior, short => by
      cases found : SENTENCE_END.taken { prior, rest := c :: rest } with
      | none =>
          have later := parted_scan size rest (some c) (Nat.le_of_succ_le_succ short)
          rw [scan_passed found, sentences]
          revert later
          generalize sentences (SENTENCE_END.scan (some c) 0 rest) = segments
          intro later
          cases later with
          | last missed =>
              refine .last ⟨?_, missed⟩
              rw [List.append_nil]
              exact found
          | @next _ text _ _ _ _ missed here whole behind =>
              rw [← getLast?_cons_or c _ prior] at here behind
              exact @Parted.next prior (c :: text) _ _ _ _ ⟨found, missed⟩ here whole behind
      | some m =>
          obtain ⟨matched, nonempty⟩ := Option.filter_eq_some_iff.mp found
          obtain ⟨after, shape⟩ := matchAt_front matched
          change c :: rest = m.text ++ after at shape
          rw [shape] at found ⊢
          have bound := congrArg List.length shape
          have some_text := List.length_pos_iff.mpr (of_decide_eq_true nonempty)
          rw [List.length_append, List.length_cons] at bound
          rw [List.length_cons] at short
          rw [scan_boundary found rfl, sentences]
          exact @Parted.next prior [] _ _ _ _ trivial found rfl
            (parted_scan size after _ (by omega))

theorem parted_pieces (text : List Char) :
    Parted none text (sentences (SENTENCE_END.pieces text)) :=
  parted_scan text.length text none (Nat.le_refl _)

/-- A text is parted in one way. -/
theorem sentences_of_parted {prior : Option Char} {text : List Char}
    {segments : List (List Char × List Char)} (parted : Parted prior text segments) :
    sentences (SENTENCE_END.scan prior 0 text) = segments := by
  induction parted with
  | @last prior text missed =>
      have passed := scan_misses missed
      rw [List.append_nil] at passed
      have alone := @sentences_plain [] [] [] (SENTENCE_END.scan (text.getLast?.or prior) 0 []) rfl
        text
      rw [List.append_nil] at alone
      rw [passed]
      exact alone
  | @next prior text b rest more m missed found whole _ ih =>
      rw [scan_misses missed, scan_boundary found whole]
      have first : sentences (.found m :: SENTENCE_END.scan
          (b.getLast?.or (text.getLast?.or prior)) 0 rest) = ([], b) :: more := by
        rw [sentences, ih, whole]
      have shown := sentences_plain first text
      rwa [List.append_nil] at shown

/-! ## Edits keep boundaries -/

theorem avoids_sentenceEnd {z : Char} (solid : isSpace z = false) : SENTENCE_END.Avoids z := by
  have other : z ≠ '\n' := fun same => by
    rw [same] at solid
    cases solid
  exact ⟨⟨trivial, solid, trivial, trivial⟩, decide_eq_false other⟩

theorem avoids_bracket {ds : List Char} (numeral : Decimals ds) :
    ∀ c ∈ bracket ds, SENTENCE_END.Avoids c := by
  intro c mem
  refine avoids_sentenceEnd ?_
  rcases List.mem_append.mp mem with front | closes
  · rcases List.mem_cons.mp front with rfl | digit
    · decide
    · exact isSpace_of_isDecimal (numeral c digit)
  · rw [List.mem_singleton.mp closes]
    decide

theorem getLast?_bracket (ds : List Char) (prior : Option Char) :
    (bracket ds).getLast?.or prior = some ']' := by
  rw [bracket, List.getLast?_append]
  rfl

/-- No boundary begins in a text around a bracket when none does in the parts. -/
theorem misses_bracket {prior : Option Char} {pre ds post behind : List Char}
    (numeral : Decimals ds) :
    SENTENCE_END.Misses prior (pre ++ (bracket ds ++ post)) behind ↔
      SENTENCE_END.Misses prior pre ['['] ∧ SENTENCE_END.Misses (some ']') post behind := by
  have opens : SENTENCE_END.Avoids '[' := avoids_sentenceEnd (by decide)
  rw [misses_append, misses_append, getLast?_bracket]
  have within : SENTENCE_END.Misses (pre.getLast?.or prior) (bracket ds) (post ++ behind) :=
    misses_of_avoids (avoids_bracket numeral)
  rw [and_iff_right within]
  refine and_congr_left fun _ => ⟨fun missed => ?_, fun missed => ?_⟩
  · exact @misses_avoided _ _ opens [] _ _ _ _ missed
  · exact @misses_avoided _ _ opens [] _ _ _ _ missed

theorem misses_edit {prior : Option Char} {x y behind : List Char} (step : Edit Decimals x y)
    (missed : SENTENCE_END.Misses prior x behind) : SENTENCE_END.Misses prior y behind := by
  cases step with
  | @replaced pre ds ds' post digits numeral =>
      exact (misses_bracket numeral).mpr ((misses_bracket digits.2).mp missed)
  | @added pre ds ds' post digits numeral =>
      obtain ⟨front, back⟩ := (misses_bracket digits.2).mp missed
      exact (misses_bracket digits.2).mpr
        ⟨front, (@misses_bracket _ [] ds' post behind numeral).mpr ⟨trivial, back⟩⟩
  | collapsed step =>
      obtain ⟨digits, -⟩ := step
      obtain ⟨front, back⟩ := (misses_bracket digits.2).mp missed
      exact (misses_bracket digits.2).mpr ⟨front, ((misses_bracket digits.2).mp back).2⟩

theorem getLast?_edit {x y : List Char} (step : Edit Decimals x y) : y.getLast? = x.getLast? := by
  have last : ∀ pre ds post : List Char,
      (pre ++ (bracket ds ++ post)).getLast? = post.getLast?.or (some ']') := by
    intro pre ds post
    rw [List.getLast?_append, List.getLast?_append, Option.or_assoc, getLast?_bracket]
  cases step with
  | replaced => rw [last, last]
  | added => rw [last, ← List.nil_append (bracket _ ++ _), last, last, Option.or_assoc]; rfl
  | collapsed step =>
      cases step
      rw [last, last, last, Option.or_assoc]
      rfl

theorem agree_edit {x y : List Char} (step : Edit Decimals x y) : Agree x y := by
  have opens : ∀ pre ds post ds' post' : List Char,
      Agree (pre ++ (bracket ds ++ post)) (pre ++ (bracket ds' ++ post')) := by
    intro pre ds post ds' post'
    exact agree_bracket pre _ _
  cases step with
  | replaced => exact opens _ _ _ _ _
  | added => exact opens _ _ _ _ _
  | collapsed step =>
      cases step
      exact opens _ _ _ _ _

/-- What a chain of edits keeps of a sentence. -/
theorem edits_keep {x y : List Char} (chain : Edits Decimals x y) :
    (∀ prior behind, SENTENCE_END.Misses prior x behind → SENTENCE_END.Misses prior y behind) ∧
      y.getLast? = x.getLast? ∧ Agree x y := by
  induction chain with
  | refl => exact ⟨fun _ _ missed => missed, rfl, .inl rfl⟩
  | tail _ step ih =>
      obtain ⟨missed, last, same⟩ := ih
      exact ⟨fun prior behind none => misses_edit step (missed prior behind none),
        (getLast?_edit step).trans last, same.trans (agree_edit step)⟩

/-- The text of sentences and boundaries. -/
def joined (segments : List (List Char × List Char)) : List Char :=
  segments.flatMap fun (sentence, boundary) => sentence ++ boundary

/-- **Edited sentences are parted where they were.** -/
theorem parted_edited {prior : Option Char} {text : List Char}
    {segments : List (List Char × List Char)} (parted : Parted prior text segments) :
    ∀ {after : List (List Char × List Char)},
      List.Forall₂ (fun a a' => a'.2 = a.2 ∧ Edits Decimals a.1 a'.1) segments after →
      Parted prior (joined after) after ∧ Agree text (joined after) := by
  induction parted with
  | @last prior text missed =>
      intro after each
      cases each with
      | @cons _ a _ _ here none =>
          cases none
          obtain ⟨sentence, boundary⟩ := a
          obtain ⟨rfl, chain⟩ := here
          obtain ⟨keeps, -, same⟩ := edits_keep chain
          have whole : joined [(sentence, [])] = sentence := by simp [joined]
          rw [whole]
          exact ⟨.last (keeps _ _ missed), same⟩
  | @next prior text b rest more m missed found whole _ ih =>
      intro after each
      cases each with
      | @cons _ a _ later here others =>
          obtain ⟨sentence, boundary⟩ := a
          obtain ⟨rfl, chain⟩ := here
          obtain ⟨keeps, last, same⟩ := edits_keep chain
          obtain ⟨behind, agrees⟩ := ih others
          have shape : joined ((sentence, boundary) :: later) =
              sentence ++ (boundary ++ joined later) := by
            simp [joined]
          rw [shape]
          have opens : SENTENCE_END.Avoids '[' := avoids_sentenceEnd (by decide)
          -- what follows is the same as far as a bracket
          have moved : SENTENCE_END.Misses prior text (boundary ++ joined later) ∧
              SENTENCE_END.taken
                { prior := text.getLast?.or prior, rest := boundary ++ joined later } = some m := by
            rcases agrees with alike | ⟨a, x, y, -, left, right⟩
            · rw [← alike]
              exact ⟨missed, found⟩
            · rw [left, ← List.append_assoc] at missed found
              rw [right, ← List.append_assoc]
              rw [taken_avoided opens] at found ⊢
              exact ⟨misses_avoided opens missed, found⟩
          refine ⟨.next (keeps _ _ moved.1) (by rw [last]; exact moved.2) whole
            (by rw [last]; exact behind), ?_⟩
          have front := same.around [] (boundary ++ joined later)
          have back := agrees.around (text ++ boundary) []
          simp only [List.nil_append, List.append_nil, List.append_assoc] at front back
          exact back.trans front

end OpsAssist.Repointing
