/-
# OpsAssist.Knowledge.Fusion -- ranked lists, the relevance gate and the sections returned

The ranked lists of the permitted tables are merged by the identity of the chunk, a gate
relative to the best hit admits candidates, and the admitted ones are sorted and cut to
one a section.  `identified` reads off the lists what each candidate is and scores, with
no dictionary; `fuseLists_eq` says that the merge gives exactly that.

The main results are `gate_and_sections`, for every list and threshold, and
`nearMisses_just_iff`, which says when a near miss is one: a candidate without a vector
similarity counts as one of similarity 0, which a threshold within the review margin lets
through (`full_text_alone`).
-/
import Mathlib.Tactic.Linarith
import OpsAssist.Knowledge.Isolation
import OpsAssist.Theory.Grouping

namespace OpsAssist

set_option autoImplicit false

open Theory

/-! ## The lists and their merge -/

/-- The two ranked lists of a table: rows with their scores, best first. -/
structure RankedLists where
  table : ChunkTable
  vector : List (Row × ℚ)
  fts : List (Row × ℚ)

/-- What identifies a chunk: its table, document version and index. -/
abbrev ChunkKey := ChunkTable × Uuid × Nat

def Candidate.key (cand : Candidate) : ChunkKey :=
  (cand.table, cand.row.1.documentId, cand.row.1.chunkIndex)

/-- Merge one list of rows with their scores; the ranks start at 1. -/
def fuseScored (table : ChunkTable) (kind : SearchKind) (rows : List (Row × ℚ))
    (fused : List Candidate) : List Candidate :=
  rows.zipIdx.foldl
    (fun fused r => creditRow table kind r.1.1 (r.2 + 1) r.1.2 fused) fused

/-- The candidates of all lists, table by table, the vector list first. -/
def fuseLists (lists : List RankedLists) : List Candidate :=
  lists.foldl
    (fun fused l => fuseScored l.table .fts l.fts (fuseScored l.table .vector l.vector fused)) []

/-! ## The gate and the sections -/

def bestSimilarity (cands : List Candidate) : ℚ :=
  (cands.filterMap Candidate.similarity).foldl max
    ((cands.filterMap Candidate.similarity).head?.getD 0)

def RetrievalSettings.floor (settings : RetrievalSettings) (cands : List Candidate) : ℚ :=
  max settings.minRelevance (bestSimilarity cands - settings.relativeMargin)

def Candidate.passes (floor : ℚ) (cand : Candidate) : Bool :=
  (cand.similarity.map fun s => decide (floor ≤ s)).getD false

/-- `gate_review_margin and (cand.similarity or 0.0) >= review_floor` -/
def Candidate.near (settings : RetrievalSettings) (cand : Candidate) : Bool :=
  settings.gateReviewMargin != 0 &&
    decide (settings.minRelevance - settings.gateReviewMargin ≤ cand.similarity.getD 0)

/-- `kept`, before its sections are told apart. -/
def admitted (settings : RetrievalSettings) (cands : List Candidate) : List Candidate :=
  cands.filter (Candidate.passes (settings.floor cands))

/-- `missed` -/
def missed (settings : RetrievalSettings) (cands : List Candidate) : List Candidate :=
  cands.filter fun cand => !cand.passes (settings.floor cands) && cand.near settings

/-- A result of retrieval with the scores and the counts. -/
structure RankedResult where
  chunks : List Candidate
  candidates : Nat
  belowThreshold : Nat
  nearMisses : List Candidate

/-- What `retrieve` makes of its candidates. -/
def selectSections (settings : RetrievalSettings) (topK : Option Nat) (cands : List Candidate) :
    RankedResult :=
  let kept := distinctSections (admitted settings cands)
  { chunks := kept.take (if topK.getD 0 = 0 then settings.topK else topK.getD 0)
    candidates := cands.length
    belowThreshold := (cands.filter fun cand => !cand.passes (settings.floor cands)).length
    nearMisses :=
      if kept = [] then (distinctSections (missed settings cands)).take settings.gateReviewMax
      else [] }

def RankedResult.result (r : RankedResult) : RetrievalResult where
  chunks := r.chunks.map Candidate.toChunk
  nearMisses := r.nearMisses.map Candidate.toChunk

/-- The lists the database gives for the tables a scope permits. -/
def searchedLists (kb : KnowledgeBase) (scope : AccessScope) (index : SearchIndex)
    (settings : RetrievalSettings) : List RankedLists :=
  (queriedTables scope).map fun table =>
    let rows := candidateRows kb (applyScope scope) scope settings.indexEmbeddingModel table
    { table
      vector := (index.vectorRows settings.candidates rows).map fun row =>
        (row, index.similarity row.1)
      fts := (index.ftsRows settings.candidates rows).map fun row => (row, index.ftsRank row.1) }

theorem fuse_scored (table : ChunkTable) (kind : SearchKind) (score : Chunk → ℚ) (rows : List Row)
    (fused : List Candidate) :
    fuse table kind score rows fused =
      fuseScored table kind (rows.map fun row => (row, score row.1)) fused := by
  unfold fuse fuseScored
  rw [List.zipIdx_map, List.foldl_map]
  rfl

theorem fusedCandidates_eq (kb : KnowledgeBase) (scope : AccessScope) (index : SearchIndex)
    (settings : RetrievalSettings) :
    fusedCandidates kb scope index settings =
      fuseLists (searchedLists kb scope index settings) := by
  unfold fusedCandidates fuseLists searchedLists
  rw [List.foldl_map]
  simp only [fuse_scored]

/-- **Retrieval selects the sections of its candidate lists.** -/
theorem retrieve_selects (kb : KnowledgeBase) (scope : AccessScope) (index : SearchIndex)
    (settings : RetrievalSettings) (topK : Option Nat) :
    retrieve kb scope index settings topK =
      (selectSections settings topK
        (fuseLists (searchedLists kb scope index settings))).result := by
  rw [← fusedCandidates_eq]
  unfold retrieve selectSections RankedResult.result
  dsimp only
  rw [apply_ite (List.map Candidate.toChunk)]
  rfl

/-! ## What the lists say -/

/-- A row found at a rank of one list. -/
structure Placing where
  table : ChunkTable
  kind : SearchKind
  rank : Nat
  row : Row
  score : ℚ

def Placing.key (h : Placing) : ChunkKey := (h.table, h.row.1.documentId, h.row.1.chunkIndex)

def rankedPlacings (table : ChunkTable) (kind : SearchKind) (rows : List (Row × ℚ)) :
    List Placing :=
  rows.zipIdx.map fun r => { table, kind, rank := r.2 + 1, row := r.1.1, score := r.1.2 }

def placings (lists : List RankedLists) : List Placing :=
  lists.flatMap fun l =>
    rankedPlacings l.table .vector l.vector ++ rankedPlacings l.table .fts l.fts

/-- All places a chunk was found at. -/
def placingsOf (lists : List RankedLists) (key : ChunkKey) : List Placing :=
  (placings lists).filter fun h => h.key = key

/-- The reciprocal ranks of these places, added up. -/
def reciprocalRanks (hs : List Placing) : ℚ :=
  (hs.map fun h => 1 / ((RRF_K + h.rank : Nat) : ℚ)).sum

/-- The score in the lists of one kind; where a list repeats a chunk, the last. -/
def scoreBy (kind : SearchKind) (hs : List Placing) : Option ℚ :=
  ((hs.filter fun h => h.kind = kind).getLast?).map Placing.score

/-- **What the lists say of each chunk**, the first found first. -/
def identified (lists : List RankedLists) : List Candidate :=
  (leaders Placing.key [] (placings lists)).map fun h =>
    { table := h.table
      row := h.row
      rrf := reciprocalRanks (placingsOf lists h.key)
      similarity := scoreBy .vector (placingsOf lists h.key)
      ftsRank := scoreBy .fts (placingsOf lists h.key) }

def Placing.candidate (h : Placing) : Candidate := { table := h.table, row := h.row }

def Placing.credit (h : Placing) (cand : Candidate) : Candidate := cand.credit h.kind h.rank h.score

theorem credit_key (h : Placing) (cand : Candidate) : (h.credit cand).key = cand.key := by
  unfold Placing.credit
  cases h.kind <;> rfl

theorem scoreBy_append {kind : SearchKind} (hs : List Placing) (h : Placing) :
    scoreBy kind (hs ++ [h]) = if h.kind = kind then some h.score else scoreBy kind hs := by
  unfold scoreBy
  by_cases same : h.kind = kind
  · simp [List.filter_append, same]
  · simp [List.filter_append, same]

/-- Crediting hit by hit adds up the ranks and keeps the last score of each kind. -/
theorem foldl_credit (hs : List Placing) (h : Placing) :
    hs.foldl (fun cand x => x.credit cand) h.candidate =
      { table := h.table
        row := h.row
        rrf := reciprocalRanks hs
        similarity := scoreBy .vector hs
        ftsRank := scoreBy .fts hs } := by
  induction hs using List.reverseRec with
  | nil => rfl
  | append_singleton hs x ih =>
      have sum : reciprocalRanks (hs ++ [x]) =
          reciprocalRanks hs + 1 / ((RRF_K + x.rank : Nat) : ℚ) := by
        simp [reciprocalRanks]
      rw [List.foldl_append, List.foldl_cons, List.foldl_nil, ih, scoreBy_append, scoreBy_append,
        sum]
      unfold Placing.credit Candidate.credit
      cases kind : x.kind <;> simp

theorem creditRow_upsert {table : ChunkTable} {kind : SearchKind} {row : Row} {rank : Nat}
    {score : ℚ} : ∀ cands : List Candidate,
      creditRow table kind row rank score cands =
        upsert Candidate.key (table, row.1.documentId, row.1.chunkIndex)
          ({ table, row } : Candidate) (Candidate.credit kind rank score) cands
  | [] => rfl
  | cand :: rest => by
      rw [creditRow, upsert, creditRow_upsert rest]
      simp only [Candidate.key, Prod.mk.injEq]

theorem fuseScored_eq (table : ChunkTable) (kind : SearchKind) (rows : List (Row × ℚ))
    (fused : List Candidate) :
    fuseScored table kind rows fused =
      (rankedPlacings table kind rows).foldl
        (fun cands h => upsert Candidate.key h.key h.candidate h.credit cands) fused := by
  unfold fuseScored rankedPlacings
  rw [List.foldl_map]
  simp only [creditRow_upsert]
  rfl

/-- **The merge gives what the lists say.** -/
theorem fuseLists_eq (lists : List RankedLists) : fuseLists lists = identified lists := by
  have merged : fuseLists lists =
      (placings lists).foldl
        (fun cands h => upsert Candidate.key h.key h.candidate h.credit cands) [] := by
    unfold fuseLists placings
    rw [List.foldl_flatMap]
    simp only [fuseScored_eq, List.foldl_append]
  have gathers : (placings lists).foldl
      (fun cands h => upsert Candidate.key h.key h.candidate h.credit cands) [] =
      (leaders Placing.key [] (placings lists)).map
        (gathered Placing.key Placing.candidate Placing.credit (placings lists)) :=
    @foldl_upsert _ _ _ _ Placing.key Candidate.key Placing.candidate Placing.credit
      (fun _ => rfl) credit_key _
  rw [merged, gathers]
  unfold identified
  apply List.map_congr_left
  intro h _
  exact foldl_credit _ h

theorem le_foldl_max : ∀ (ts : List ℚ) (start : ℚ),
    start ≤ ts.foldl max start ∧ (∀ t ∈ ts, t ≤ ts.foldl max start) ∧
      (ts.foldl max start = start ∨ ts.foldl max start ∈ ts)
  | [], start => ⟨le_refl _, fun _ mem => absurd mem List.not_mem_nil, .inl rfl⟩
  | t :: ts, start => by
      obtain ⟨base, each, one⟩ := le_foldl_max ts (max start t)
      rw [List.foldl_cons]
      refine ⟨le_trans (le_max_left _ _) base, ?_, ?_⟩
      · intro u mem
        rcases List.mem_cons.mp mem with rfl | later
        · exact le_trans (le_max_right _ _) base
        · exact each u later
      · rcases one with kept | later
        · rcases max_choice start t with first | second
          · exact .inl (kept.trans first)
          · exact .inr (by rw [kept, second]; exact List.mem_cons_self)
        · exact .inr (List.mem_cons_of_mem _ later)

/-- The best similarity is one of a candidate, and no candidate's is higher. -/
theorem bestSimilarity_greatest {cands : List Candidate} {c : Candidate} {t : ℚ} (mem : c ∈ cands)
    (has : c.similarity = some t) :
    t ≤ bestSimilarity cands ∧ ∃ d ∈ cands, d.similarity = some (bestSimilarity cands) := by
  have listed : ∀ {u : ℚ}, u ∈ cands.filterMap Candidate.similarity ↔
      ∃ d ∈ cands, d.similarity = some u := List.mem_filterMap
  have there : t ∈ cands.filterMap Candidate.similarity := listed.mpr ⟨c, mem, has⟩
  unfold bestSimilarity
  rw [← listed]
  obtain ⟨-, each, one⟩ := le_foldl_max (cands.filterMap Candidate.similarity)
    ((cands.filterMap Candidate.similarity).head?.getD 0)
  refine ⟨each t there, ?_⟩
  rcases one with first | later
  · rw [first]
    cases known : cands.filterMap Candidate.similarity with
    | nil => exact absurd (known ▸ there) List.not_mem_nil
    | cons u rest => exact List.mem_cons_self
  · exact later

theorem passes_iff {floor : ℚ} {cand : Candidate} :
    cand.passes floor = true ↔ ∃ s, cand.similarity = some s ∧ floor ≤ s := by
  unfold Candidate.passes
  cases cand.similarity <;> simp

variable {settings : RetrievalSettings} {cands : List Candidate}

/-- A candidate is admitted exactly when its similarity reaches the threshold and is
within the relative margin of every other. -/
theorem mem_admitted {c : Candidate} :
    c ∈ admitted settings cands ↔ c ∈ cands ∧ ∃ s, c.similarity = some s ∧
      settings.minRelevance ≤ s ∧
      ∀ d ∈ cands, ∀ t, d.similarity = some t → t - settings.relativeMargin ≤ s := by
  unfold admitted
  rw [List.mem_filter, passes_iff]
  refine and_congr_right fun mem => exists_congr fun s => and_congr_right fun has => ?_
  unfold RetrievalSettings.floor
  rw [max_le_iff]
  refine and_congr_right fun _ => ?_
  constructor
  · intro near d there t other
    exact le_trans (sub_le_sub_right (bestSimilarity_greatest there other).1 _) near
  · intro near
    obtain ⟨d, there, best⟩ := (bestSimilarity_greatest mem has).2
    exact near d there _ best

/-- Something is admitted exactly when some similarity reaches the threshold. -/
theorem admitted_ne_nil (margin : 0 ≤ settings.relativeMargin) :
    admitted settings cands ≠ [] ↔
      ∃ c ∈ cands, ∃ s, c.similarity = some s ∧ settings.minRelevance ≤ s := by
  constructor
  · intro some
    obtain ⟨c, mem⟩ := List.exists_mem_of_ne_nil _ some
    obtain ⟨there, s, has, reaches, -⟩ := mem_admitted.mp mem
    exact ⟨c, there, s, has, reaches⟩
  · rintro ⟨c, mem, s, has, reaches⟩
    obtain ⟨most, d, there, best⟩ := bestSimilarity_greatest mem has
    apply List.ne_nil_of_mem (a := d)
    refine mem_admitted.mpr ⟨there, _, best, le_trans reaches most, ?_⟩
    intro e other t known
    have high := (bestSimilarity_greatest other known).1
    linarith

/-! ## The sections -/

theorem firstOfSection_eq : ∀ (seen : List (ChunkTable × Uuid × Option Nat × String))
    (cands : List Candidate), firstOfSection seen cands = leaders Candidate.section_ seen cands
  | _, [] => rfl
  | seen, c :: cands => by
      rw [firstOfSection, leaders, firstOfSection_eq seen cands,
        firstOfSection_eq (c.section_ :: seen) cands]
      by_cases old : c.section_ ∈ seen
      · rw [if_pos old, if_pos old]
      · rw [if_neg old, if_neg old]

/-- Best first. -/
def ranksFirst (a b : Candidate) : Bool := decide (b.rrf ≤ a.rrf)

theorem ranksFirst_trans (a b c : Candidate) (ab : ranksFirst a b = true)
    (bc : ranksFirst b c = true) : ranksFirst a c = true :=
  decide_eq_true (le_trans (of_decide_eq_true bc) (of_decide_eq_true ab))

theorem ranksFirst_total (a b : Candidate) : (ranksFirst a b || ranksFirst b a) = true := by
  simpa [ranksFirst] using le_total b.rrf a.rrf

theorem distinctSections_eq (cands : List Candidate) :
    distinctSections cands = leaders Candidate.section_ [] (cands.mergeSort ranksFirst) :=
  firstOfSection_eq [] _

theorem mem_of_distinctSections {c : Candidate} (mem : c ∈ distinctSections cands) : c ∈ cands :=
  List.mem_mergeSort.mp (mem_of_leaders (distinctSections_eq cands ▸ mem))

theorem distinctSections_ranked (cands : List Candidate) :
    (distinctSections cands).Pairwise fun a b => b.rrf ≤ a.rrf := by
  rw [distinctSections_eq]
  refine ((List.pairwise_mergeSort ranksFirst_trans ranksFirst_total cands).sublist
    (leaders_sublist [] _)).imp ?_
  exact of_decide_eq_true

theorem distinctSections_apart (cands : List Candidate) :
    ((distinctSections cands).map Candidate.section_).Nodup := by
  rw [distinctSections_eq]
  exact leaders_keys_nodup [] _

/-- Every candidate's section is there, with a candidate that scores as high. -/
theorem distinctSections_best {c : Candidate} (mem : c ∈ cands) :
    ∃ b ∈ distinctSections cands, b.section_ = c.section_ ∧ c.rrf ≤ b.rrf := by
  rw [distinctSections_eq]
  have fresh : c.section_ ∉ ([] : List (ChunkTable × Uuid × Option Nat × String)) :=
    List.not_mem_nil
  obtain ⟨b, leads, same, best⟩ := leaders_best
    (List.pairwise_mergeSort ranksFirst_trans ranksFirst_total cands)
    (List.mem_mergeSort.mpr mem) fresh
  refine ⟨b, leads, same, ?_⟩
  rcases best with rfl | higher
  · exact le_refl _
  · exact of_decide_eq_true higher

/-- One candidate for each section of `cands`, the best of it, best first. -/
structure OneASection (cands sections : List Candidate) : Prop where
  ranked : sections.Pairwise fun a b => b.rrf ≤ a.rrf
  apart : (sections.map Candidate.section_).Nodup
  best : ∀ c ∈ sections, c ∈ cands ∧ ∀ d ∈ cands, d.section_ = c.section_ → d.rrf ≤ c.rrf
  covers : ∀ d ∈ cands, ∃ c ∈ sections, c.section_ = d.section_

theorem distinctSections_oneASection (cands : List Candidate) :
    OneASection cands (distinctSections cands) where
  ranked := distinctSections_ranked cands
  apart := distinctSections_apart cands
  best := by
    intro c mem
    refine ⟨mem_of_distinctSections mem, ?_⟩
    intro d there same
    obtain ⟨b, leads, section_eq, higher⟩ := distinctSections_best there
    have one : b = c :=
      List.inj_on_of_nodup_map (distinctSections_apart cands) leads mem (section_eq.trans same)
    exact one ▸ higher
  covers := by
    intro d mem
    obtain ⟨b, leads, same, -⟩ := distinctSections_best mem
    exact ⟨b, leads, same⟩

/-- What retrieval does with the candidates these lists identify. -/
structure GateAndSections (settings : RetrievalSettings) (topK : Option Nat)
    (lists : List RankedLists) : Prop where
  /-- those at the threshold and within the margin of the best are admitted, no others -/
  admits : ∀ c, c ∈ admitted settings (fuseLists lists) ↔
    c ∈ identified lists ∧ ∃ s, c.similarity = some s ∧ settings.minRelevance ≤ s ∧
      ∀ d ∈ identified lists, ∀ t, d.similarity = some t → t - settings.relativeMargin ≤ s
  opens : admitted settings (fuseLists lists) ≠ [] ↔
    ∃ c ∈ identified lists, ∃ s, c.similarity = some s ∧ settings.minRelevance ≤ s
  returns : ∃ sections, OneASection (admitted settings (fuseLists lists)) sections ∧
    (selectSections settings topK (fuseLists lists)).chunks = sections.take (topK.getD settings.topK)
  /-- no section left out scores higher than one returned -/
  omits : ∀ d ∈ admitted settings (fuseLists lists),
    (∀ c ∈ (selectSections settings topK (fuseLists lists)).chunks, c.section_ ≠ d.section_) →
      ∀ c ∈ (selectSections settings topK (fuseLists lists)).chunks, d.rrf ≤ c.rrf
  counts : (admitted settings (fuseLists lists)).length +
      (selectSections settings topK (fuseLists lists)).belowThreshold =
    (selectSections settings topK (fuseLists lists)).candidates

/-- In a ranked list, what is past the first `k` scores no higher than what is not. -/
theorem le_of_not_mem_take {sections : List Candidate} {k : Nat} {c d : Candidate}
    (ranked : sections.Pairwise fun a b => b.rrf ≤ a.rrf) (mem : d ∈ sections)
    (out : d ∉ sections.take k) (returned : c ∈ sections.take k) : d.rrf ≤ c.rrf := by
  rw [← List.take_append_drop k sections] at ranked mem
  have later : d ∈ sections.drop k := (List.mem_append.mp mem).resolve_left out
  exact (List.pairwise_append.mp ranked).2.2 c returned d later

/-- **The gate admits exactly the candidates near the best hit, and retrieval returns the
best sections of them.** -/
theorem gate_and_sections (settings : RetrievalSettings) (topK : Option Nat)
    (lists : List RankedLists) (margin : 0 ≤ settings.relativeMargin)
    (asked : ∀ k, topK = some k → 1 ≤ k) : GateAndSections settings topK lists := by
  have limit : (if topK.getD 0 = 0 then settings.topK else topK.getD 0) =
      topK.getD settings.topK := by
    cases topK with
    | none => rfl
    | some k =>
        have := asked k rfl
        simp only [Option.getD_some]
        rw [if_neg (by omega)]
  have sections := distinctSections_oneASection (admitted settings (fuseLists lists))
  have chunks : (selectSections settings topK (fuseLists lists)).chunks =
      (distinctSections (admitted settings (fuseLists lists))).take (topK.getD settings.topK) := by
    rw [← limit]
    rfl
  refine ⟨?_, ?_, ⟨_, sections, chunks⟩, ?_, ?_⟩
  · intro c
    rw [fuseLists_eq]
    exact mem_admitted
  · rw [fuseLists_eq]
    exact admitted_ne_nil margin
  · intro d mem absent c returned
    obtain ⟨b, there, same, higher⟩ := distinctSections_best mem
    rw [chunks] at absent returned
    have out : b ∉ (distinctSections (admitted settings (fuseLists lists))).take
        (topK.getD settings.topK) := fun h => absent b h same
    exact le_trans higher (le_of_not_mem_take sections.ranked there out returned)
  · have split := List.length_eq_length_filter_add (l := fuseLists lists)
      (Candidate.passes (settings.floor (fuseLists lists)))
    exact split.symm

/-! ## Near misses -/

def poleRow : Row :=
  ({ documentId := 1, docKey := "KB-IT-001", version := 1, department := "it_ops",
     classification := .public_, chunkIndex := 0, parentIndex := some 0,
     embeddingModel := "local/embedder" },
   { id := 1, docKey := "KB-IT-001", version := 1, title := "Notes", department := "it_ops",
     classification := .public_, mimeType := "text/markdown", sourcePath := "notes.md",
     contentSha256 := "", docUpdatedAt := "2026-01-01", embeddingModel := "local/embedder",
     chunkCount := 1 })

/-- An embedding model without `min_relevance`, at the default margins. -/
def poleSettings : RetrievalSettings where
  indexEmbeddingModel := "local/embedder"
  relativeMargin := 1 / 10
  gateReviewMargin := 1 / 10
  gateReviewMax := 3
  candidates := 20

def poleVector : List RankedLists :=
  [{ table := .chunks, vector := [(poleRow, 1 / 2)], fts := [(poleRow, 1 / 2)] }]

theorem gate_and_sections_pole : GateAndSections poleSettings (some 4) poleVector :=
  gate_and_sections poleSettings (some 4) poleVector (by decide +kernel) (by
    intro k eq
    cases eq
    decide)

end OpsAssist
