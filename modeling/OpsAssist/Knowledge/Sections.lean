/-
# OpsAssist.Knowledge.Sections -- chunks and the headings between them

Headings are dropped before packing, which compares the heading paths of the units alone.
So a chunk crosses a heading exactly where one stands between two consecutive paragraphs or
items with the same path (`never_crosses_iff`); two sections with the same heading are
enough (`repeated_heading`).
-/
import OpsAssist.Knowledge.BlockBuilder
import OpsAssist.Knowledge.Chunking

namespace OpsAssist.Chunking

set_option autoImplicit false

open Theory

/-- A group holds units from both sides of a heading. -/
def Crosses (blocks : List Block) (group : List TextUnit) : Prop :=
  ∃ pre h post, blocks = pre ++ h :: post ∧ h.kind = .heading ∧
    (∃ u ∈ group, u.ordinal ≤ (contentBlocks pre).length) ∧
    ∃ v ∈ group, (contentBlocks pre).length < v.ordinal

/-- No parent and no child of the document's chunks crosses a heading. -/
def NeverCrosses (doc : ParsedDocument) (cfg : ChunkingConfig) : Prop :=
  ∀ p ∈ parentsOf doc cfg, ¬Crosses doc.blocks p ∧
    ∀ child ∈ packUnits p cfg.targetTokens, ¬Crosses doc.blocks child

/-- Where headings stand between two consecutive paragraphs or items, the titles standing
before and behind them differ. -/
def HeadingsApart (blocks : List Block) : Prop :=
  ∀ pre a mid b post, blocks = pre ++ a :: (mid ++ b :: post) →
    a.kind ≠ .heading → b.kind ≠ .heading → mid ≠ [] → (∀ h ∈ mid, h.kind = .heading) →
      outline pre ≠ outline (pre ++ mid)

/-! ## Content blocks -/

theorem contentBlocks_append (l m : List Block) :
    contentBlocks (l ++ m) = contentBlocks l ++ contentBlocks m := List.filter_append ..

theorem contentBlocks_cons {b : Block} (content : b.kind ≠ .heading) (l : List Block) :
    contentBlocks (b :: l) = b :: contentBlocks l :=
  List.filter_cons_of_pos (by simpa using content)

theorem contentBlocks_heading {h : Block} (heading : h.kind = .heading) (l : List Block) :
    contentBlocks (h :: l) = contentBlocks l :=
  List.filter_cons_of_neg (by simpa using heading)

theorem contentBlocks_headings {mid : List Block} (headings : ∀ h ∈ mid, h.kind = .heading) :
    contentBlocks mid = [] := by
  unfold contentBlocks
  rw [List.filter_eq_nil_iff]
  intro h mem
  simpa using headings h mem

/-- The first paragraph or item of some blocks, behind headings. -/
theorem split_first {blocks rest : List Block} {b : Block}
    (first : contentBlocks blocks = b :: rest) :
    ∃ mid post, blocks = mid ++ b :: post ∧ b.kind ≠ .heading ∧ ∀ h ∈ mid, h.kind = .heading := by
  obtain ⟨mid, post, split, headings, content, -⟩ := List.filter_eq_cons_iff.mp first
  exact ⟨mid, post, split, by simpa using content, fun h mem => by simpa using headings h mem⟩

/-- The last one, before headings. -/
theorem split_last {blocks front : List Block} {a : Block}
    (last : contentBlocks blocks = front ++ [a]) :
    ∃ pre mid, blocks = pre ++ a :: mid ∧ a.kind ≠ .heading ∧ ∀ h ∈ mid, h.kind = .heading := by
  have reversed : contentBlocks blocks.reverse = a :: front.reverse := by
    unfold contentBlocks at last ⊢
    rw [List.filter_reverse, last, List.reverse_append, List.reverse_singleton,
      List.singleton_append]
  obtain ⟨mid, post, split, content, headings⟩ := split_first reversed
  refine ⟨post.reverse, mid.reverse, ?_, content, ?_⟩
  · have := congrArg List.reverse split
    simpa using this
  · exact fun h mem => headings h (List.mem_reverse.mp mem)

/-- Content adds no heading. -/
theorem outline_content {a : Block} (content : a.kind ≠ .heading) (pre mid : List Block) :
    outline (pre ++ a :: mid) = outline (pre ++ mid) := by
  simp [outline, headingsIn, content]

/-! ## A group that crosses -/

/-- Two neighbours of a group between which a number lies. -/
theorem exists_crossing {k : Nat} : ∀ {w : TextUnit} {rest : List TextUnit},
    (w :: rest).IsChain Follows → w.ordinal ≤ k → (∃ v ∈ w :: rest, k < v.ordinal) →
      ∃ init x y later, w :: rest = init ++ x :: y :: later ∧ x.ordinal = k ∧ y.ordinal = k + 1
  | w, [], _, low, ⟨v, mem, high⟩ => by
      rw [List.mem_singleton.mp mem] at high
      omega
  | w, y :: rest, chain, low, ⟨v, mem, high⟩ => by
      obtain ⟨next, later⟩ := List.isChain_cons_cons.mp chain
      by_cases here : k < y.ordinal
      · refine ⟨[], w, y, rest, rfl, ?_⟩
        rcases next with same | succ <;> omega
      · have inside : v ∈ y :: rest := by
          rcases List.mem_cons.mp mem with rfl | there
          · omega
          · exact there
        obtain ⟨init, x, z, tail, split, at_, at_'⟩ :=
          exists_crossing later (Nat.le_of_not_lt here) ⟨v, inside, high⟩
        exact ⟨w :: init, x, z, tail, by rw [split, List.cons_append], at_, at_'⟩

/-- Units of one section have the same headings. -/
theorem headings_of_unbroken {init rest : List TextUnit} {x y : TextUnit} {units : List TextUnit}
    {limit : Nat} (mem : init ++ x :: y :: rest ∈ packUnits units limit) :
    y.headings = x.headings := by
  have joined : (init ++ [x]) ++ y :: rest ∈ packUnits units limit := by
    rwa [List.append_assoc, List.singleton_append]
  have fits := (packUnits_unbroken joined
    (List.append_ne_nil_of_right_ne_nil init (List.cons_ne_nil x []))).1
  unfold newSection at fits
  simpa using fits

section

variable {doc : ParsedDocument} {cfg : ChunkingConfig}

/-- Where the paths differ behind headings, no group of consecutive units crosses one. -/
theorem not_crosses {units group : List TextUnit} {limit : Nat}
    (recorded : RecordsOutline doc.blocks)
    (apart : HeadingsApart doc.blocks) (mem : group ∈ packUnits units limit)
    (chain : group.IsChain Follows) (inside : ∀ u ∈ group, u ∈ unitsOf doc cfg) :
    ¬Crosses doc.blocks group := by
  rintro ⟨pre, h, post, split, heading, ⟨u, mu, low⟩, v, mv, high⟩
  obtain ⟨w, rest, rfl⟩ := List.exists_cons_of_ne_nil (List.ne_nil_of_mem mu)
  have first : w.ordinal ≤ u.ordinal :=
    ((ordinals_interval chain u.ordinal).mp ⟨u, mu, rfl⟩).1
  obtain ⟨init, x, y, later, shape, atx, aty⟩ :=
    exists_crossing chain (Nat.le_trans first low) ⟨v, mv, high⟩
  have memx : x ∈ unitsOf doc cfg := inside x (shape ▸ by simp)
  have memy : y ∈ unitsOf doc cfg := inside y (shape ▸ by simp)
  -- the paragraphs on either side of the heading
  obtain ⟨n, a, ata, piecex⟩ := mem_splitUnits.mp memx
  obtain ⟨m, b, atb, piecey⟩ := mem_splitUnits.mp memy
  obtain ⟨ordx, -, headx⟩ := mem_splitBlock piecex
  obtain ⟨ordy, -, heady⟩ := mem_splitBlock piecey
  have content : contentBlocks doc.blocks = contentBlocks pre ++ contentBlocks post := by
    rw [split, contentBlocks_append, contentBlocks_heading heading]
  have before : contentBlocks pre = (contentBlocks pre).take n ++ [a] := by
    rw [content, List.getElem?_append_left (by omega)] at ata
    obtain ⟨bound, at_⟩ := List.getElem?_eq_some_iff.mp ata
    have whole := List.take_concat_get' (contentBlocks pre) n bound
    rw [List.take_of_length_le (i := n + 1) (by omega), at_] at whole
    exact whole.symm
  have behind : contentBlocks post = b :: (contentBlocks post).drop 1 := by
    rw [content, List.getElem?_append_right (by omega)] at atb
    have zero : m - (contentBlocks pre).length = 0 := by omega
    rw [zero] at atb
    cases known : contentBlocks post with
    | nil =>
        rw [known] at atb
        cases atb
    | cons c more =>
        rw [known] at atb
        rw [Option.some.inj atb]
        rfl
  obtain ⟨front, mid, split_pre, content_a, headings⟩ := split_last before
  obtain ⟨mid', back, split_post, content_b, headings'⟩ := split_first behind
  have whole : doc.blocks = front ++ a :: ((mid ++ h :: mid') ++ b :: back) := by
    rw [split, split_pre, split_post]
    simp
  have between : ∀ k ∈ mid ++ h :: mid', k.kind = .heading := by
    intro k inner
    rcases List.mem_append.mp inner with left | right
    · exact headings k left
    · rcases List.mem_cons.mp right with rfl | more
      · exact heading
      · exact headings' k more
  apply apart front a (mid ++ h :: mid') b back whole content_a content_b
    (List.append_ne_nil_of_right_ne_nil mid (List.cons_ne_nil h mid')) between
  have path_a : a.headings = outline front := by
    rw [recorded front a _ whole, outline_content content_a, List.append_nil]
  have path_b : b.headings = outline (front ++ (mid ++ h :: mid')) := by
    have at_ := recorded (front ++ a :: (mid ++ h :: mid')) b back (by rw [whole]; simp)
    rw [at_, outline_content content_b, List.append_nil, outline_content content_a]
  have same : y.headings = x.headings := headings_of_unbroken (shape ▸ mem)
  rw [← path_a, ← path_b, ← headx, ← heady, same]

/-- Where the paths differ behind headings, no chunk crosses one. -/
theorem neverCrosses_of_apart (recorded : RecordsOutline doc.blocks)
    (apart : HeadingsApart doc.blocks) :
    NeverCrosses doc cfg := by
  intro p mem
  have inside : ∀ u ∈ p, u ∈ unitsOf doc cfg := (packUnits_part mem).subset
  refine ⟨not_crosses recorded apart mem (parent_follows mem) inside, ?_⟩
  intro child there
  exact not_crosses recorded apart there
    ( List.IsChain.infix (parent_follows mem) (packUnits_part there))
    fun u mu => inside u ((packUnits_part there).subset mu)

/-! ## Two sections with one path -/

theorem estimateTokens_mono {a b : String} (le : a.length ≤ b.length) :
    estimateTokens a ≤ estimateTokens b := by
  unfold estimateTokens
  by_cases none : a = ""
  · rw [if_pos none]
    exact Nat.zero_le _
  · have held : b ≠ "" := by
      rintro rfl
      apply none
      rw [← String.toList_eq_nil_iff, ← List.length_eq_zero_iff, String.length_toList]
      exact Nat.le_zero.mp le
    rw [if_neg none, if_neg held]
    omega

theorem estimateTokens_part {part whole : List String} (inside : part <:+: whole) :
    estimateTokens (" ".intercalate part) ≤ estimateTokens (" ".intercalate whole) := by
  apply estimateTokens_mono
  rw [← String.length_toList, ← String.length_toList]
  exact (Text.intercalate_part inside).length_le

/-- Limits no text of these blocks exceeds. -/
def roomy (blocks : List Block) : ChunkingConfig :=
  let tokens := estimateTokens (" ".intercalate ((contentBlocks blocks).map Block.text))
  { targetTokens := tokens, maxTokens := tokens, splitTokens := tokens }

/-- Within them each paragraph or item is one unit. -/
theorem unitsOf_roomy : unitsOf doc (roomy doc.blocks) =
    ((contentBlocks doc.blocks).zipIdx 1).map fun b => unitOf b.1 b.2 b.1.text := by
  have whole : ∀ b ∈ (contentBlocks doc.blocks).zipIdx 1,
      splitBlock (roomy doc.blocks).splitTokens (roomy doc.blocks).targetTokens b.2 b.1 =
        [unitOf b.1 b.2 b.1.text] := by
    intro b listed
    have mem : b.1 ∈ contentBlocks doc.blocks :=
      List.mem_of_getElem? (List.mem_zipIdx_iff_le_and_getElem?_sub.mp listed).2
    have fits : estimateTokens b.1.text ≤ (roomy doc.blocks).splitTokens := by
      have part : [b.1.text] <:+: (contentBlocks doc.blocks).map Block.text := by
        obtain ⟨front, back, shape⟩ := List.append_of_mem (List.mem_map_of_mem mem)
        exact ⟨front, back, by rw [shape, List.append_assoc, List.singleton_append]⟩
      have le := estimateTokens_part part
      rwa [String.intercalate_singleton] at le
    rw [splitBlock, if_pos fits]
  unfold unitsOf splitUnits
  rw [splitUnitsFrom_eq, List.flatMap_congr whole, List.map_eq_flatMap]

theorem texts_roomy : (unitsOf doc (roomy doc.blocks)).map TextUnit.text =
    (contentBlocks doc.blocks).map Block.text := by
  have each : TextUnit.text ∘ (fun b : Block × Nat => unitOf b.1 b.2 b.1.text) =
      Block.text ∘ Prod.fst := rfl
  rw [unitsOf_roomy, List.map_map, each, ← List.map_map, List.zipIdx_map_fst]

/-- Neighbours with one path are together in a parent. -/
theorem together_roomy {front back : List TextUnit} {u v : TextUnit}
    (units : unitsOf doc (roomy doc.blocks) = front ++ u :: v :: back)
    (same : v.headings = u.headings) : Together (parentsOf doc (roomy doc.blocks)) u v := by
  unfold parentsOf packUnits
  rw [units]
  apply packFrom_together (fun _ => List.nil_suffix)
  intro x suffix
  rw [List.nil_append] at suffix
  rw [Bool.or_eq_false_iff]
  refine ⟨?_, ?_⟩
  · unfold newSection
    simp [same]
  · have inside : x ++ [u] ++ [v] <:+: unitsOf doc (roomy doc.blocks) := by
      obtain ⟨before, whole⟩ := suffix
      exact ⟨before, back, by rw [units, ← whole]; simp⟩
    have le := estimateTokens_part (inside.map TextUnit.text)
    rw [texts_roomy] at le
    unfold tooBig
    exact decide_eq_false (Nat.not_lt.mpr le)

/-- Within them a heading between paragraphs of one path is crossed. -/
theorem crosses_of_same {pre post mid : List Block} {a b : Block}
    (recorded : RecordsOutline doc.blocks)
    (split : doc.blocks = pre ++ a :: (mid ++ b :: post)) (content_a : a.kind ≠ .heading)
    (content_b : b.kind ≠ .heading) (held : mid ≠ []) (headings : ∀ h ∈ mid, h.kind = .heading)
    (same : outline pre = outline (pre ++ mid)) : ¬NeverCrosses doc (roomy doc.blocks) := by
  have path_a : a.headings = outline pre := by
    rw [recorded pre a _ split, outline_content content_a, List.append_nil]
  have path_b : b.headings = outline (pre ++ mid) := by
    have at_ := recorded (pre ++ a :: mid) b post (by rw [split]; simp)
    rw [at_, outline_content content_b, List.append_nil, outline_content content_a]
  have content : contentBlocks doc.blocks =
      contentBlocks pre ++ a :: b :: contentBlocks post := by
    rw [split, contentBlocks_append, contentBlocks_cons content_a, contentBlocks_append,
      contentBlocks_headings headings, contentBlocks_cons content_b, List.nil_append]
  have units := @unitsOf_roomy doc
  rw [content, List.zipIdx_append, List.zipIdx_cons, List.zipIdx_cons, List.map_append,
    List.map_cons, List.map_cons] at units
  obtain ⟨p, mem, x, y, shape⟩ := together_roomy units
    (show b.headings = a.headings by rw [path_a, path_b, same])
  intro never
  apply (never p mem).1
  obtain ⟨h, more, rfl⟩ := List.exists_cons_of_ne_nil held
  have count : (contentBlocks (pre ++ [a])).length = (contentBlocks pre).length + 1 := by
    rw [contentBlocks_append, contentBlocks_cons content_a, List.length_append]
    rfl
  refine ⟨pre ++ [a], h, more ++ b :: post, ?_, headings h List.mem_cons_self, ?_, ?_⟩
  · rw [split]
    simp
  · refine ⟨unitOf a (1 + (contentBlocks pre).length) a.text, ?_, ?_⟩
    · rw [shape]
      simp
    · rw [count]
      exact Nat.le_of_eq (Nat.add_comm _ _)
  · refine ⟨unitOf b (1 + (contentBlocks pre).length + 1) b.text, ?_, ?_⟩
    · rw [shape]
      simp
    · rw [count, Nat.add_comm 1]
      exact Nat.lt_succ_self _

end

/-- **Chunks cross no heading, whatever the limits, exactly when the titles standing before
and behind the headings between two consecutive paragraphs or items differ.** -/
theorem never_crosses_iff (mode : HeadingMode) (pages : List (Option Nat × List String)) :
    (∀ doc : ParsedDocument, doc.blocks = (BlockBuilder.feedPages mode pages).blocks →
      ∀ cfg, NeverCrosses doc cfg) ↔
    HeadingsApart (BlockBuilder.feedPages mode pages).blocks := by
  have recorded := (BlockBuilder.feedPages_outlined mode pages).recorded
  constructor
  · intro never pre a mid b post split content_a content_b held headings same
    let doc : ParsedDocument :=
      { metadata := poleDocument.metadata
        blocks := (BlockBuilder.feedPages mode pages).blocks
        mimeType := "text/markdown"
        sourcePath := "t.md" }
    have crosses : ¬NeverCrosses doc (roomy doc.blocks) :=
      crosses_of_same recorded split content_a content_b held headings same
    exact crosses (never doc rfl _)
  · intro apart doc same cfg
    exact neverCrosses_of_apart (same ▸ recorded) (same ▸ apart)

/-! ## Poles -/

/-- Two sections under one heading. -/
def poleRepeated : List String := ["# Rollback", "", "one", "", "# Rollback", "", "two"]

def poleBlocks : List Block :=
  [{ text := "Rollback", kind := .heading, headings := ["Rollback"], level := 1 },
    { text := "one", kind := .paragraph, headings := ["Rollback"] },
    { text := "Rollback", kind := .heading, headings := ["Rollback"], level := 1 },
    { text := "two", kind := .paragraph, headings := ["Rollback"] }]

/-- At the default limits both are one parent. -/
theorem repeated_heading :
    ¬∀ doc : ParsedDocument,
      doc.blocks = (BlockBuilder.feedPages .markdown [(none, poleRepeated)]).blocks →
        NeverCrosses doc {} := by
  intro never
  have blocks : poleBlocks = (BlockBuilder.feedPages .markdown [(none, poleRepeated)]).blocks := by
    decide +kernel
  have parents : parentsOf { poleDocument with blocks := poleBlocks } {} =
      [[{ text := "one", ordinal := 1, page := none, headings := ["Rollback"] },
        { text := "two", ordinal := 2, page := none, headings := ["Rollback"] }]] := by
    decide +kernel
  apply (never { poleDocument with blocks := poleBlocks } blocks _
    (parents ▸ List.mem_singleton.mpr rfl)).1
  refine ⟨poleBlocks.take 2, _, [_], rfl, rfl, ?_, ?_⟩
  · exact ⟨_, List.mem_cons_self, by decide⟩
  · exact ⟨_, List.mem_cons_of_mem _ List.mem_cons_self, by decide⟩

end OpsAssist.Chunking
