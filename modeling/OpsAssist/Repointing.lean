/-
# OpsAssist.Repointing -- re-pointing repairs attribution and nothing else

`Repairs` is what re-pointing an answer is for: settled sentences stay, the others credit
every figure to a source that has it, and doing it again changes nothing.
`repairs_iff`: it does so exactly when the figures can be read and the sources it credits
can be written as markers.
Poles: `folded_number_word`, `hundredth_source`.
-/
import OpsAssist.Repointing.Boundaries
import OpsAssist.Repointing.Sentences

namespace OpsAssist.Repointing

set_option autoImplicit false

open Theory Theory.Pattern Theory.Text

variable (host : Host) (word : Char → Bool)

/-! ## What re-pointing is for -/

/-- A sentence before and after: the same when there is nothing to repair, and repaired
otherwise. -/
def Sound (sources : List Figures) (before after : List Char) : Prop :=
  ∃ stated, figures host word before = some stated ∧
    (Settled sources stated before → after = before) ∧
    (¬ Settled sources stated before → Repaired host word sources stated before after)

/-- Re-pointing an answer returns a text whose sentences and boundaries are those of the
answer, each sentence as it should be, and re-pointing that text changes nothing. -/
def Repairs (answer : List Char) (chunks : List RetrievedChunk) : Prop :=
  ∃ sources text changed,
    chunks.mapM (fun c => figures host word c.context.toList) = some sources ∧
    repointCitations host word answer chunks = some (text, changed) ∧
    List.Forall₂ (fun before after => after.2 = before.2 ∧
        Sound host word sources before.1 after.1)
      (sentences (SENTENCE_END.pieces answer)) (sentences (SENTENCE_END.pieces text)) ∧
    repointCitations host word text chunks = some (text, 0)

/-- The figures of a sentence can be read and, where it is not settled, its credited sources
can be written. -/
def Creditable (sources : List Figures) (sentence : List Char) : Prop :=
  ∃ stated, figures host word sentence = some stated ∧
    (¬ Settled sources stated sentence → Writable sources stated sentence)

/-! ## One sentence -/

section

variable {host word} {sources : List Figures} {stated : Figures} {before after : List Char}

theorem repointSentence_settled (known : figures host word before = some stated)
    (settled : Settled sources stated before) :
    repointSentence host word before sources = some (before, 0) := by
  rw [repointSentence_eq host word known]
  rcases settled_iff.mp settled with none | none | none
  · rw [if_pos (.inl none)]
  · rw [if_pos (.inr none)]
  · rw [if_pos none, ite_self]

theorem repointSentence_unsettled (known : figures host word before = some stated)
    (unsettled : ¬ Settled sources stated before) :
    repointSentence host word before sources =
      rewriteSentence (deadOf sources stated (cites sources before))
        (creditedFor sources (missingFrom sources stated (cites sources before))) before := by
  rw [repointSentence_eq host word known]
  rw [settled_iff, not_or, not_or] at unsettled
  rw [if_neg (by simp [unsettled.1, unsettled.2.1]), if_neg unsettled.2.2]

theorem figures_of_repointed {n : Nat}
    (done : repointSentence host word before sources = some (after, n)) :
    ∃ stated, figures host word before = some stated := by
  cases known : figures host word before with
  | none =>
      unfold repointSentence at done
      rw [known] at done
      cases done
  | some stated => exact ⟨stated, rfl⟩

/-- With at most 99 sources, every source can be written. -/
theorem writable_of_few (few : sources.length ≤ 99) : Writable sources stated before := by
  have small : ∀ k ∈ creditedFor sources (missingFrom sources stated (cites sources before)),
      k < 100 := by
    intro k mem
    have bound := (replacementsFor_sound mem).2.1
    omega
  refine ⟨fun _ first leads => small first (List.mem_of_head? leads), ?_, ?_⟩
  · intro k mem large
    exact absurd (small k mem) (by omega)
  · intro f lost
    obtain ⟨k, credited, held⟩ :=
      replacementsFor_covers (Nat.le_refl _) lost (mem_missingFrom.mp lost).2.2
    exact ⟨k, credited, small k credited, held⟩

/-- Whatever re-pointing makes of a sentence, it is an edit of it. -/
theorem edits_repointed {n : Nat}
    (done : repointSentence host word before sources = some (after, n)) :
    Edits Decimals before after := by
  obtain ⟨stated, known⟩ := figures_of_repointed done
  by_cases settled : Settled sources stated before
  · rw [repointSentence_settled known settled] at done
    cases done
    exact .refl
  · rw [repointSentence_unsettled known settled] at done
    exact edits_rewriteSentence settled done

theorem creditable_of_sound {n : Nat}
    (done : repointSentence host word before sources = some (after, n))
    (sound : Sound host word sources before after) : Creditable host word sources before := by
  obtain ⟨stated, known, -, repaired⟩ := sound
  refine ⟨stated, known, fun unsettled => ?_⟩
  rw [repointSentence_unsettled known unsettled] at done
  exact writable_of_repaired host word unsettled done (repaired unsettled)

/-- A creditable sentence comes out as it should, and stays so. -/
theorem sound_of_creditable (creditable : Creditable host word sources before) :
    ∃ after n, repointSentence host word before sources = some (after, n) ∧
      Sound host word sources before after ∧
      repointSentence host word after sources = some (after, 0) := by
  obtain ⟨stated, known, writable⟩ := creditable
  by_cases settled : Settled sources stated before
  · have same := repointSentence_settled known settled
    exact ⟨before, 0, same, ⟨stated, known, fun _ => rfl, fun un => absurd settled un⟩, same⟩
  · obtain ⟨after, n, done, repaired, -⟩ :=
      repaired_of_writable host word known settled (writable settled)
    rw [← repointSentence_unsettled known settled] at done
    refine ⟨after, n, done, ⟨stated, known, fun se => absurd se settled, fun _ => repaired⟩, ?_⟩
    exact repointSentence_settled repaired.states (.inr (.inr repaired.credited))

end

/-! ## The whole answer -/

theorem mapM_some_iff {α β : Type} {f : α → Option β} : ∀ {l : List α} {out : List β},
    l.mapM f = some out ↔ List.Forall₂ (fun a b => f a = some b) l out
  | [], out => by
      rw [List.mapM_nil, List.forall₂_nil_left_iff]
      exact ⟨fun same => (Option.some.inj same).symm, fun none => by rw [none]; rfl⟩
  | a :: l, out => by
      rw [List.mapM_cons, List.forall₂_cons_left_iff]
      constructor
      · intro done
        obtain ⟨b, first, done⟩ := Option.bind_eq_some_iff.mp done
        obtain ⟨bs, later, done⟩ := Option.bind_eq_some_iff.mp done
        exact ⟨b, bs, first, mapM_some_iff.mp later, (Option.some.inj done).symm⟩
      · rintro ⟨b, bs, first, later, rfl⟩
        rw [first, mapM_some_iff.mpr later]
        rfl

/-- A sentence re-pointed, its boundary behind it. -/
def repointSegment (sources : List Figures) (segment : List Char × List Char) :
    Option ((List Char × List Char) × Nat) :=
  (repointSentence host word segment.1 sources).map fun done => ((done.1, segment.2), done.2)

theorem repointCitations_eq {answer : List Char} {chunks : List RetrievedChunk}
    {sources : List Figures}
    (known : chunks.mapM (fun c => figures host word c.context.toList) = some sources) :
    repointCitations host word answer chunks =
      ((sentences (SENTENCE_END.pieces answer)).mapM (repointSegment host word sources)).map
        fun out => (joined (out.map Prod.fst), (out.map Prod.snd).sum) := by
  unfold repointCitations
  rw [known]
  simp only [bind, Option.bind_some, pure]
  have each : ∀ segments : List (List Char × List Char),
      (segments.mapM fun segment =>
        (repointSentence host word segment.1 sources).bind fun done =>
          some (done.1 ++ segment.2, done.2)) =
        (segments.mapM (repointSegment host word sources)).map
          (List.map fun out => (out.1.1 ++ out.1.2, out.2)) := by
    intro segments
    induction segments with
    | nil => rfl
    | cons segment segments ih =>
        rw [List.mapM_cons, List.mapM_cons, ih, repointSegment]
        cases repointSentence host word segment.1 sources with
        | none => rfl
        | some done =>
            cases segments.mapM (repointSegment host word sources) <;> rfl
  rw [each]
  cases (sentences (SENTENCE_END.pieces answer)).mapM (repointSegment host word sources) with
  | none => rfl
  | some out =>
      simp only [Option.map_some, Option.bind_some, joined, List.map_map, List.flatMap_map]
      rfl

theorem repointSegment_some {sources : List Figures} {segment after : List Char × List Char}
    {n : Nat} : repointSegment host word sources segment = some (after, n) ↔
      after.2 = segment.2 ∧ repointSentence host word segment.1 sources = some (after.1, n) := by
  obtain ⟨sentence, boundary⟩ := after
  rw [repointSegment, Option.map_eq_some_iff]
  constructor
  · rintro ⟨⟨repointed, m⟩, done, same⟩
    cases same
    exact ⟨rfl, done⟩
  · rintro ⟨same, done⟩
    obtain rfl : boundary = segment.2 := same
    exact ⟨(sentence, n), done, rfl⟩

/-- The sentences of the returned text are the sentences as they come out. -/
theorem sentences_repointed {answer : List Char} {sources : List Figures}
    {out : List ((List Char × List Char) × Nat)}
    (each : List.Forall₂ (fun segment after =>
        repointSegment host word sources segment = some after)
      (sentences (SENTENCE_END.pieces answer)) out) :
    sentences (SENTENCE_END.pieces (joined (out.map Prod.fst))) = out.map Prod.fst := by
  have edited : List.Forall₂ (fun a a' => a'.2 = a.2 ∧ Edits Decimals a.1 a'.1)
      (sentences (SENTENCE_END.pieces answer)) (out.map Prod.fst) := by
    rw [List.forall₂_map_right_iff]
    refine each.imp fun segment after done => ?_
    obtain ⟨same, done⟩ := (repointSegment_some host word).mp done
    exact ⟨same, edits_repointed done⟩
  exact sentences_of_parted (parted_edited (parted_pieces answer) edited).1

theorem forall_of_forall₂ {α β : Type} {R : α → β → Prop} {P : α → Prop}
    (one : ∀ a b, R a b → P a) : ∀ {l : List α} {l' : List β}, List.Forall₂ R l l' →
      ∀ a ∈ l, P a
  | _, _, .nil, _, mem => by cases mem
  | _, _, .cons first later, a, mem => by
      rcases List.mem_cons.mp mem with rfl | behind
      · exact one _ _ first
      · exact forall_of_forall₂ one later a behind

theorem forall₂_both {α β : Type} {R S : α → β → Prop} : ∀ {l : List α} {l' : List β},
    List.Forall₂ R l l' → List.Forall₂ S l l' → List.Forall₂ (fun a b => R a b ∧ S a b) l l'
  | _, _, .nil, .nil => .nil
  | _, _, .cons first later, .cons first' later' =>
      .cons ⟨first, first'⟩ (forall₂_both later later')

/-- Creditable sentences come out as they should. -/
theorem sound_segments {sources : List Figures} : ∀ {segments : List (List Char × List Char)},
    (∀ segment ∈ segments, Creditable host word sources segment.1) →
    ∃ out : List ((List Char × List Char) × Nat), List.Forall₂ (fun segment after =>
      repointSegment host word sources segment = some after ∧
        Sound host word sources segment.1 after.1.1 ∧
        repointSegment host word sources after.1 = some (after.1, 0)) segments out
  | [], _ => ⟨[], .nil⟩
  | segment :: segments, each => by
      obtain ⟨out, later⟩ := sound_segments fun s mem => each s (List.mem_cons_of_mem segment mem)
      obtain ⟨after, n, done, sound, again⟩ :=
        sound_of_creditable (each segment List.mem_cons_self)
      refine ⟨((after, segment.2), n) :: out, .cons ⟨?_, sound, ?_⟩ later⟩
      · exact (repointSegment_some host word).mpr ⟨rfl, done⟩
      · exact (repointSegment_some host word).mpr ⟨rfl, again⟩

/-- **Re-pointing repairs attribution and nothing else exactly when the figures can be read
and the sources it credits can be written as markers.** -/
theorem repairs_iff (answer : List Char) (chunks : List RetrievedChunk) :
    Repairs host word answer chunks ↔ ∃ sources,
      chunks.mapM (fun c => figures host word c.context.toList) = some sources ∧
      ∀ segment ∈ sentences (SENTENCE_END.pieces answer),
        Creditable host word sources segment.1 := by
  constructor
  · rintro ⟨sources, text, changed, known, done, sound, -⟩
    refine ⟨sources, known, ?_⟩
    rw [repointCitations_eq host word known] at done
    obtain ⟨out, parts, shape⟩ := Option.map_eq_some_iff.mp done
    cases shape
    have each := mapM_some_iff.mp parts
    rw [sentences_repointed host word each, List.forall₂_map_right_iff] at sound
    refine forall_of_forall₂ (fun segment after both => ?_) (forall₂_both each sound)
    obtain ⟨here, -, isSound⟩ := both
    exact creditable_of_sound ((repointSegment_some host word).mp here).2 isSound
  · rintro ⟨sources, known, creditable⟩
    obtain ⟨out, all⟩ := sound_segments host word creditable
    have each : List.Forall₂ (fun segment after =>
        repointSegment host word sources segment = some after) _ out := all.imp fun _ _ h => h.1
    have parted := sentences_repointed host word each
    refine ⟨sources, joined (out.map Prod.fst), (out.map Prod.snd).sum, known, ?_, ?_, ?_⟩
    · rw [repointCitations_eq host word known, mapM_some_iff.mpr each]
      rfl
    · rw [parted, List.forall₂_map_right_iff]
      exact all.imp fun segment after h => ⟨((repointSegment_some host word).mp h.1).1, h.2.1⟩
    · -- every sentence comes out as it went in
      have again : (out.map Prod.fst).mapM (repointSegment host word sources) =
          some (out.map fun after => (after.1, 0)) := by
        rw [mapM_some_iff, List.forall₂_map_left_iff, List.forall₂_map_right_iff,
          List.forall₂_same]
        intro after mem
        have stays : ∀ after ∈ out, repointSegment host word sources after.1 = some (after.1, 0) :=
          forall_of_forall₂ (fun _ _ h => h.2.2) all.flip
        exact stays after mem
      rw [repointCitations_eq host word known, parted, again, Option.map_some, List.map_map,
        List.map_map]
      simp [Function.comp_def]

/-! ## Poles -/

/-- `\w` on ASCII text and the dotless "ı". -/
def wordWithDotless (c : Char) : Bool := plainWord c || c == 'ı'

/-- The dotless "ı" folds to an "i", so "fıve" is found as a number word, and no number word
is spelt like that. -/
theorem folded_number_word :
    repointCitations Host.plain wordWithDotless "It takes fıve days [1].".toList
        [leaveSection] = none ∧
      ¬ Repairs Host.plain wordWithDotless "It takes fıve days [1].".toList [leaveSection] := by
  have raised : repointCitations Host.plain wordWithDotless "It takes fıve days [1].".toList
      [leaveSection] = none := by decide +kernel
  refine ⟨raised, ?_⟩
  rintro ⟨_, _, _, _, done, _⟩
  cases raised.symm.trans done

/-- 99 sources that state nothing, and one that states a figure. -/
def hundredSources : List RetrievedChunk :=
  List.replicate 99 { leaveSection with context := "" } ++ [{ leaveSection with context := "7" }]

/-- The hundredth source is credited in brackets that are no marker. -/
theorem hundredth_source :
    repointCitations Host.plain plainWord "7 days [1].".toList hundredSources =
      some ("7 days [100].".toList, 1) := by decide +kernel

end OpsAssist.Repointing
