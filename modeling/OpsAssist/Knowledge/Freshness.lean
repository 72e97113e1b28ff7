/-
# OpsAssist.Knowledge.Freshness -- which content of a file the index ends up with

One file changes over time, and any number of runs of `ingest_file` read it, each at its start.
`newest_content_kept` says that the active version holds the file's last content once a run that
has read it returns, in the runs where no swap of older content commits after that
(`FileWorld.inOrder`).  `older_content_returns` is a run where one does: the file is read before
the advisory lock is taken.
-/
import OpsAssist.Knowledge.Content
import OpsAssist.Knowledge.Reindexing

namespace OpsAssist.Ingest

set_option autoImplicit false

open Theory

/-! ## A file and its runs -/

/-- The index, one file, and how often the file had changed when each session read it. -/
structure FileWorld where
  index : World := {}
  file : ParsedDocument
  changes : Nat := 0
  readAt : List Nat := []

inductive FileAct where
  | change (doc : ParsedDocument)
  | start
  | advance (i : Nat) (uuid : Uuid)
  | abort (i : Nat)

namespace FileWorld

def step (hashtext : String → Int) (x : Indexer) (w : FileWorld) : FileAct → Option FileWorld
  | .change doc => some { w with file := doc, changes := w.changes + 1 }
  | .start => (w.index.step hashtext (.ingest (x.ingestion w.file))).map fun index =>
      { w with index, readAt := w.readAt ++ [w.changes] }
  | .advance i uuid => (w.index.step hashtext (.advance i uuid)).map fun index => { w with index }
  | .abort i => (w.index.step hashtext (.abort i)).map fun index => { w with index }

end FileWorld

/-- The run has returned a result. -/
def Session.returned (s : Session) : Bool :=
  match s.task with
  | .ingest _ (.returned _) => true
  | _ => false

namespace FileWorld

variable (w : FileWorld)

/-- The session is a run that has read the file since its last change, and returned. -/
def Late (i : Nat) (s : Session) : Prop :=
  w.index.sessions[i]? = some s ∧ w.readAt[i]? = some w.changes ∧ s.returned = true

/-- Some run has read the file since its last change, and returned. -/
def settled : Bool :=
  (w.index.sessions.zip w.readAt).any fun (s, n) => s.returned && n == w.changes

/-- No swap of older content commits once a run that has read the last content has returned. -/
def inOrder (x : Indexer) (w : FileWorld) : FileAct → Bool
  | .advance i _ =>
      match w.index.sessions[i]? with
      | some { task := .ingest r (.swapping _ (.committing _ _)), .. } =>
          !w.settled || r.docKey != w.file.metadata.documentId ||
            r.digest == contentHash x.host w.file x.chunkerId
      | _ => true
  | _ => true

end FileWorld

/-- The version holds this content, as the program tells contents apart. -/
def Holds (x : Indexer) (doc : ParsedDocument) (d : Document) : Prop :=
  d.contentSha256 = contentHash x.host doc x.chunkerId ∧ d.embeddingModel = x.modelId

/-- The version is one a run has made of the document. -/
def MadeOf (x : Indexer) (doc : ParsedDocument) (d : Document) : Prop :=
  ∃ id v, { d with status := .active } = (x.ingestion doc).document id v

/-! ## What a step keeps -/

variable {hashtext : String → Int} {x : Indexer} {w w' : FileWorld} {s s' : Session}
  {others : List Session}

theorem settled_iff : w.settled = true ↔ ∃ i s, w.Late i s := by
  unfold FileWorld.settled
  rw [List.any_eq_true]
  constructor
  · rintro ⟨⟨s, n⟩, mem, late⟩
    obtain ⟨i, there⟩ := List.mem_iff_getElem?.mp mem
    obtain ⟨session, read⟩ := List.getElem?_zip_eq_some.mp there
    rw [Bool.and_eq_true, beq_iff_eq] at late
    refine ⟨i, s, session, ?_, late.1⟩
    rw [read, late.2]
  · rintro ⟨i, s, session, read, returned⟩
    refine ⟨(s, w.changes), List.mem_of_getElem? (i := i)
      (List.getElem?_zip_eq_some.mpr ⟨session, read⟩), ?_⟩
    rw [Bool.and_eq_true, beq_iff_eq]
    exact ⟨returned, rfl⟩

/-- A run that goes on stays a run on its document, and has not returned. -/
theorem goes_run {v : World} {r : Ingestion} {point : IngestPoint}
    (at_ : s.task = .ingest r point) (went : s.Goes hashtext v others s') :
    (∃ next, s'.task = .ingest r next) ∧ s'.returned = false := by
  cases went with
  | locked r' here | selecting r' here | selected r' _ _ here | numbered r' _ here
  | first r' _ here | superseded r' _ _ _ here | cleared r' _ _ _ _ _ here | added r' _ _ _ here
  | filled r' _ _ _ here =>
      rw [at_] at here
      cases here
      exact ⟨⟨_, rfl⟩, rfl⟩
  | read _ _ here | marked _ _ _ here | withdrawn _ _ _ _ _ here =>
      rw [at_] at here
      cases here

/-- What a run on a document that ends has found or done. -/
inductive RunEnds (s : Session) (w : World) (r : Ingestion) : Task → Prop where
  /-- it goes on to its second transaction -/
  | onward : s.Quiet → RunEnds s w r (.ingest r .preparing)
  /-- the active version has its content -/
  | unchanged (active : Document) (result : IngestResult) : s.Quiet → active ∈ w.active r.docKey →
      r.unchanged active = true → RunEnds s w r (.ingest r (.returned result))
  /-- its version is published -/
  | published (active : Option Document) (v : Nat) (id : Uuid) (result : IngestResult) :
      s.task = .ingest r (.swapping active (.committing v id)) →
      RunEnds s w r (.ingest r (.returned result))

theorem ends_run {v : World} {r : Ingestion} {point : IngestPoint} {task : Task}
    (at_ : s.task = .ingest r point) (fits : s.Fits v.documents) (ends : s.Ends v task) :
    RunEnds s v r task := by
  cases ends with
  | kept r' active here there unchanged =>
      rw [at_] at here
      cases here
      simp only [Session.Fits, at_] at fits
      exact .unchanged active _ fits there unchanged
  | checked r' here =>
      rw [at_] at here
      cases here
      simp only [Session.Fits, at_] at fits
      exact .onward fits
  | same r' found active here there unchanged =>
      rw [at_] at here
      cases here
      simp only [Session.Fits, at_] at fits
      rw [selected_active fits.1 fits.2] at there
      exact .unchanged active _ fits.1 there unchanged
  | swapped r' active v id here =>
      rw [at_] at here
      cases here
      exact .published active v id _ at_
  | missing key here | removed key read here =>
      rw [at_] at here
      cases here

/-- What the index and the runs are in every state such a run reaches. -/
structure Current (hashtext : String → Int) (x : Indexer) (w : FileWorld) : Prop where
  sound : Sound hashtext w.index
  lengths : w.readAt.length = w.index.sessions.length
  past : ∀ n ∈ w.readAt, n ≤ w.changes
  runs : ∀ (i : Nat) (s : Session), w.index.sessions[i]? = some s → ∃ doc point,
    s.task = .ingest (x.ingestion doc) point ∧ (w.readAt[i]? = some w.changes → doc = w.file)
  made : ∀ d ∈ w.index.documents, ∃ doc, MadeOf x doc d
  held : ∀ i s, w.Late i s → ∃ d ∈ w.index.active w.file.metadata.documentId, Holds x w.file d

/-- The sessions once one of them has changed. -/
theorem getElem?_set_cases {τ : Type} {l : List τ} {i j : Nat} {a b : τ}
    (there : (l.set i a)[j]? = some b) : (i = j ∧ b = a) ∨ l[j]? = some b := by
  by_cases same : i = j
  · subst same
    rw [List.getElem?_set_self'] at there
    cases old : l[i]? with
    | none => rw [old] at there; cases there
    | some _ => rw [old] at there; exact .inl ⟨rfl, (Option.some.inj there).symm⟩
  · rw [List.getElem?_set_ne same] at there
    exact .inr there

/-- A session that moves without committing. -/
theorem Current.moved {i : Nat} (current : Current hashtext x w)
    (there : w.index.sessions[i]? = some s)
    (run : ∀ r point, s.task = .ingest r point → ∃ next, s'.task = .ingest r next)
    (unreturned : s'.returned = false)
    (sound : Sound hashtext { w.index with sessions := w.index.sessions.set i s' }) :
    Current hashtext x
      { w with index := { w.index with sessions := w.index.sessions.set i s' } } where
  sound := sound
  lengths := by
    show w.readAt.length = (w.index.sessions.set i s').length
    rw [List.length_set]
    exact current.lengths
  past := current.past
  runs j o here := by
    rcases getElem?_set_cases here with ⟨rfl, rfl⟩ | old
    · obtain ⟨doc, point, at_, read⟩ := current.runs i s there
      obtain ⟨next, task⟩ := run _ _ at_
      exact ⟨doc, next, task, read⟩
    · exact current.runs j o old
  made := current.made
  held j o late := by
    obtain ⟨here, read, returned⟩ := late
    rcases getElem?_set_cases here with ⟨rfl, rfl⟩ | old
    · rw [unreturned] at returned
      cases returned
    · exact current.held j o ⟨old, read, returned⟩

/-- A run inserts the row of its document. -/
theorem run_inserts {docs : List Document} {r : Ingestion} {point : IngestPoint}
    (at_ : s.task = .ingest r point) (fits : s.Fits docs) {n : Document}
    (mem : n ∈ s.documents.inserts) : ∃ v id, n = r.document id v := by
  have quiet : s.documents.inserts = [] → ∃ v id, n = r.document id v := fun none => by
    rw [none] at mem
    cases mem
  cases point with
  | swapping active swap =>
      simp only [Session.Fits, at_] at fits
      exact Swap.added_mem (fits.added ▸ mem)
  | selecting found =>
      simp only [Session.Fits, at_] at fits
      exact quiet fits.1.inserts
  | checking | preparing | locked | returned _ | aborted =>
      simp only [Session.Fits, at_] at fits
      exact quiet fits.inserts

theorem made_committed {docs : List Document} {doc : ParsedDocument} {point : IngestPoint}
    (at_ : s.task = .ingest (x.ingestion doc) point) (fits : s.Fits docs)
    (made : ∀ d ∈ docs, ∃ doc, MadeOf x doc d) :
    ∀ d ∈ committedBy s docs, ∃ doc, MadeOf x doc d := by
  intro d mem
  rcases documentsTable.mem_view.mp mem with new | ⟨before, there, rfl⟩
  · obtain ⟨v, id, rfl⟩ := run_inserts at_ fits new
    exact ⟨doc, id, v, rfl⟩
  · obtain ⟨doc, id, v, same⟩ := made before there
    refine ⟨doc, id, v, ?_⟩
    rw [← same]
    exact documentsTable.amend_keeps (fun d => { d with status := .active }) (fun _ _ => rfl) _ before

theorem unchanged_holds {doc : ParsedDocument} {d : Document}
    (unchanged : (x.ingestion doc).unchanged d = true) : Holds x doc d := by
  unfold Ingestion.unchanged at unchanged
  rw [Bool.and_eq_true, beq_iff_eq, beq_iff_eq] at unchanged
  exact unchanged

/-- **A run that ends leaves the last content, if one that has read it has returned.** -/
theorem ended_held {i : Nat} {task : Task} {doc : ParsedDocument} {point : IngestPoint}
    (current : Current hashtext x w) (there : w.index.sessions[i]? = some s)
    (at_ : s.task = .ingest (x.ingestion doc) point)
    (read : w.readAt[i]? = some w.changes → doc = w.file)
    (run : RunEnds s w.index (x.ingestion doc) task)
    (inOrder : ∀ active v id, s.task = .ingest (x.ingestion doc)
      (.swapping active (.committing v id)) → w.settled = true →
      doc.metadata.documentId = w.file.metadata.documentId →
      contentHash x.host doc x.chunkerId = contentHash x.host w.file x.chunkerId)
    {j : Nat} {o : Session}
    (late : FileWorld.Late { w with index := w.index.take i s (.commit task) } j o) :
    ∃ d ∈ (w.index.take i s (.commit task)).active w.file.metadata.documentId,
      Holds x w.file d := by
  have fits := current.sound.fits s (List.mem_of_getElem? there)
  -- the run itself has read the last content, or another one had returned before
  have who : (o.returned = true ∧ doc = w.file ∧ o = { task }) ∨ w.settled = true := by
    obtain ⟨here, readLast, returned⟩ := late
    rcases getElem?_set_cases here with ⟨rfl, rfl⟩ | old
    · exact .inl ⟨returned, read readLast, rfl⟩
    · exact .inr (settled_iff.mpr ⟨j, o, old, readLast, returned⟩)
  have before : w.settled = true →
      ∃ d ∈ w.index.active w.file.metadata.documentId, Holds x w.file d := by
    intro settled
    obtain ⟨k, q, was⟩ := settled_iff.mp settled
    exact current.held k q was
  have same : s.Quiet → (w.index.take i s (.commit task)).active w.file.metadata.documentId =
      w.index.active w.file.metadata.documentId := by
    intro quiet
    show (committedBy s w.index.documents).filter _ = _
    rw [committedBy, documentsTable.view_quiet quiet.inserts quiet.updates]
    rfl
  cases run with
  | onward quiet =>
      rw [same quiet]
      rcases who with ⟨returned, -, rfl⟩ | settled
      · cases returned
      · exact before settled
  | unchanged active result quiet mem unchanged =>
      rw [same quiet]
      rcases who with ⟨-, rfl, -⟩ | settled
      · exact ⟨active, mem, unchanged_holds unchanged⟩
      · exact before settled
  | published active v id result commits =>
      have known := fits
      simp only [Session.Fits, commits] at known
      have publishes := Swapping.publishes commits known
      have mine : ∀ {key}, doc.metadata.documentId = key →
          (x.ingestion doc).document id v ∈ (w.index.take i s (.commit
            (.ingest (x.ingestion doc) (.returned result)))).active key := by
        rintro key rfl
        show _ ∈ (committedBy s w.index.documents).filter (activeOf (x.ingestion doc).docKey)
        rw [publishes.active]
        exact List.mem_cons_self
      rcases who with ⟨-, rfl, -⟩ | settled
      · exact ⟨_, mine rfl, rfl, rfl⟩
      · by_cases own : doc.metadata.documentId = w.file.metadata.documentId
        · exact ⟨_, mine own, inOrder active v id commits settled own, rfl⟩
        · have ne : w.file.metadata.documentId ≠ (x.ingestion doc).docKey := fun h => own h.symm
          have others : ¬s.Adds w.file.metadata.documentId := by
            apply fits.not_adds
            simp only [Session.serialized, commits]
            exact fun h => ne (Option.some.inj h).symm
          have kept := committed_active fits
            (w.index.sessions.set i { task := .ingest (x.ingestion doc) (.returned result) })
            others fun u mem d there h =>
              current.sound.foreign ne (known.ofKey u mem) d there h.symm
          obtain ⟨d, mem, holds⟩ := before settled
          refine ⟨d, ?_, holds⟩
          rw [← kept] at mem
          exact mem

/-- The condition on the step, for the run that commits. -/
theorem inOrder_commit {i : Nat} {uuid : Uuid} (order : w.inOrder x (.advance i uuid) = true)
    (there : w.index.sessions[i]? = some s) {doc : ParsedDocument} {active : Option Document}
    {v : Nat} {id : Uuid}
    (commits : s.task = .ingest (x.ingestion doc) (.swapping active (.committing v id)))
    (settled : w.settled = true)
    (own : doc.metadata.documentId = w.file.metadata.documentId) :
    contentHash x.host doc x.chunkerId = contentHash x.host w.file x.chunkerId := by
  unfold FileWorld.inOrder at order
  dsimp only at order
  rw [there] at order
  obtain ⟨task, documents, chunks⟩ := s
  cases commits
  dsimp only at order
  rw [settled, Bool.or_eq_true, Bool.or_eq_true] at order
  rcases order with (never | other) | same
  · cases never
  · exact absurd own (bne_iff_ne.mp other)
  · exact beq_iff_eq.mp same

theorem Current.began (current : Current hashtext x w)
    (sound : Sound hashtext { w.index with
      sessions := w.index.sessions ++ [{ task := .ingest (x.ingestion w.file) .checking }] }) :
    Current hashtext x { w with
      index := { w.index with
        sessions := w.index.sessions ++ [{ task := .ingest (x.ingestion w.file) .checking }] }
      readAt := w.readAt ++ [w.changes] } := by
  have places : ∀ (i : Nat) (o : Session), (w.index.sessions ++
      [{ task := .ingest (x.ingestion w.file) .checking }])[i]? = some o →
        (i < w.index.sessions.length ∧ w.index.sessions[i]? = some o) ∨
          o = { task := .ingest (x.ingestion w.file) .checking } := by
    intro i o here
    rcases Nat.lt_or_ge i w.index.sessions.length with below | above
    · rw [List.getElem?_append_left below] at here
      exact .inl ⟨below, here⟩
    · rw [List.getElem?_append_right above] at here
      exact .inr (List.mem_singleton.mp (List.mem_of_getElem? here))
  have earlier : ∀ {i : Nat}, i < w.index.sessions.length →
      (w.readAt ++ [w.changes])[i]? = w.readAt[i]? := by
    intro i below
    rw [← current.lengths] at below
    exact List.getElem?_append_left below
  refine ⟨sound, ?_, ?_, ?_, current.made, ?_⟩
  · rw [List.length_append, List.length_append, current.lengths]
    rfl
  · intro n mem
    rcases List.mem_append.mp mem with old | new
    · exact current.past n old
    · rw [List.mem_singleton.mp new]
  · intro i o here
    rcases places i o here with ⟨below, old⟩ | rfl
    · obtain ⟨doc, point, at_, read⟩ := current.runs i o old
      refine ⟨doc, point, at_, fun last => read ?_⟩
      rw [← earlier below]
      exact last
    · exact ⟨w.file, .checking, rfl, fun _ => rfl⟩
  · rintro i o ⟨here, read, returned⟩
    rcases places i o here with ⟨below, old⟩ | rfl
    · apply current.held i o ⟨old, ?_, returned⟩
      rw [← earlier below]
      exact read
    · cases returned

theorem Current.changed (current : Current hashtext x w) (doc : ParsedDocument) :
    Current hashtext x { w with file := doc, changes := w.changes + 1 } := by
  have none : ∀ {i : Nat}, w.readAt[i]? ≠ some (w.changes + 1) := by
    intro i read
    have le := current.past _ (List.mem_of_getElem? read)
    omega
  refine ⟨current.sound, current.lengths, ?_, ?_, current.made, ?_⟩
  · intro n mem
    have le := current.past n mem
    show n ≤ w.changes + 1
    omega
  · intro i s there
    obtain ⟨doc', point, at_, -⟩ := current.runs i s there
    exact ⟨doc', point, at_, fun read => absurd read none⟩
  · rintro i s ⟨-, read, -⟩
    exact absurd read none

/-- **One step in order keeps the last content.** -/
theorem step_current {act : FileAct} (order : w.inOrder x act = true)
    (step : w.step hashtext x act = some w') (current : Current hashtext x w) :
    Current hashtext x w' := by
  cases act with
  | change doc =>
      cases step
      exact current.changed doc
  | start =>
      cases step
      exact current.began (steps_sound (World.Steps.ingesting _) current.sound)
  | advance i uuid =>
      obtain ⟨index, advanced, rfl⟩ := Option.map_eq_some_iff.mp step
      have steps := step_steps advanced
      have sound := steps_sound steps current.sound
      cases steps with
      | went i uuid s s' there went =>
          apply current.moved there ?_ ?_ sound
          · intro r point at_
            exact (goes_run at_ went).1
          · obtain ⟨doc, point, at_, -⟩ := current.runs i s there
            exact (goes_run at_ went).2
      | ended i uuid s task there ends idle =>
          obtain ⟨doc, point, at_, read⟩ := current.runs i s there
          have fits := current.sound.fits s (List.mem_of_getElem? there)
          have run := ends_run at_ fits ends
          refine ⟨sound, ?_, current.past, ?_, made_committed at_ fits current.made, ?_⟩
          · show w.readAt.length = (w.index.sessions.set i { task }).length
            rw [List.length_set]
            exact current.lengths
          · intro j o here
            rcases getElem?_set_cases here with ⟨rfl, rfl⟩ | old
            · cases run with
              | onward quiet => exact ⟨doc, _, rfl, read⟩
              | unchanged active result quiet mem unchanged => exact ⟨doc, _, rfl, read⟩
              | published active v id result commits => exact ⟨doc, _, rfl, read⟩
            · exact current.runs j o old
          · intro j o late
            exact ended_held current there at_ read run
              (fun active v id commits settled own =>
                inOrder_commit order there commits settled own) late
  | abort i =>
      obtain ⟨index, aborted, rfl⟩ := Option.map_eq_some_iff.mp step
      have sound := steps_sound (step_steps aborted) current.sound
      obtain ⟨s, there, rest⟩ := Option.bind_eq_some_iff.mp aborted
      obtain ⟨s', taken, same⟩ := Option.bind_eq_some_iff.mp rest
      cases same
      apply current.moved there ?_ ?_ sound
      · intro r point at_
        unfold Session.abort at taken
        rw [at_] at taken
        cases point <;> cases taken <;> exact ⟨_, rfl⟩
      · obtain ⟨doc, point, at_, -⟩ := current.runs i s there
        unfold Session.abort at taken
        rw [at_] at taken
        cases point <;> cases taken <;> rfl

theorem start_current (doc : ParsedDocument) : Current hashtext x { file := doc } where
  sound := empty_sound
  lengths := rfl
  past _ mem := nomatch mem
  runs _ _ there := nomatch there
  made _ mem := nomatch mem
  held _ _ late := nomatch late.1

/-- **Once a run that has read the last content of the file returns, the active version holds
that content, in every run in which no swap of older content commits after it.** -/
theorem newest_content_kept {doc : ParsedDocument} {acts : List FileAct}
    (run : Run (Guarded (fun w act => FileWorld.inOrder x w act = true)
      (TryStepOf (FileWorld.step hashtext x))) { file := doc } acts w)
    (settled : w.settled = true) :
    ∃ d, w.index.active w.file.metadata.documentId = [d] ∧ Holds x w.file d ∧
      (CollisionFree x.host → ∃ made, SameContent made w.file ∧
        ∃ id v, d = (x.ingestion made).document id v) := by
  have current : Current hashtext x w := by
    apply run.invariant ?_ (start_current doc)
    rintro v act v' ⟨order, step⟩ current
    exact step_current order step current
  obtain ⟨i, s, late⟩ := settled_iff.mp settled
  obtain ⟨d, mem, holds⟩ := current.held i s late
  refine ⟨d, eq_singleton (current.sound.sole _) mem, holds, fun free => ?_⟩
  obtain ⟨there, isActive⟩ := mem_active.mp mem
  obtain ⟨made, id, v, same⟩ := current.made d there
  have itself : { d with status := .active } = d := by
    rw [← (activeOf_iff.mp isActive).2]
  have row := itself.symm.trans same
  have digests : contentHash x.host made x.chunkerId = contentHash x.host w.file x.chunkerId := by
    rw [← holds.1, row]
    rfl
  exact ⟨made, contentHash_eq free digests, id, v, row⟩

/-! ## Poles -/

/-- An index with the plain host, and one chunk for a document. -/
def plainIndexer : Indexer where
  host := Host.plain
  modelId := "embed"
  chunkerId := "parent_child/v2"
  chunkDocument doc := [⟨0, 0, doc.metadata.title, doc.metadata.title, doc.metadata.title⟩]

/-- A page with a title and one paragraph. -/
def page (text : String) : ParsedDocument where
  metadata := ⟨"KB-ENG-001", "Guide", "engineering", .internal, "2026-09-01", none⟩
  blocks := [⟨text, .paragraph, none, [], 0⟩]
  mimeType := "text/markdown"
  sourcePath := "guide.md"

def fileSteps (i : Nat) (uuid : Uuid) (n : Nat) : List FileAct :=
  List.replicate n (.advance i uuid)

/-- A run reads the old content; one that reads the new content is done before it. -/
def overtaken : List FileAct :=
  .start :: fileSteps 0 1 1 ++ .change (page "new") :: .start :: fileSteps 1 2 13 ++
    fileSteps 0 1 12

/-- **Old content replaces newer content: every run has returned, one of them read the last
content, and the active version holds the content from before.** -/
theorem older_content_returns : ∃ acts w,
    Run (TryStepOf (FileWorld.step (fun _ => 0) plainIndexer)) { file := page "old" } acts w ∧
      (∀ s ∈ w.index.sessions, s.returned = true) ∧ w.settled = true ∧
      ∃ d, w.index.active w.file.metadata.documentId = [d] ∧ ¬Holds plainIndexer w.file d := by
  have fold : (overtaken.foldlM (FileWorld.step (fun _ => 0) plainIndexer)
      { file := page "old" }).any (fun w => w.index.sessions.all Session.returned && w.settled &&
        (w.index.active w.file.metadata.documentId).length == 1 &&
        (w.index.active w.file.metadata.documentId).all fun d =>
          d.contentSha256 != contentHash plainIndexer.host w.file plainIndexer.chunkerId) =
        true := by
    decide +kernel
  obtain ⟨w, reached, found⟩ := (Option.any_eq_true _ _).mp fold
  rw [Bool.and_eq_true, Bool.and_eq_true, Bool.and_eq_true] at found
  obtain ⟨⟨⟨returned, settled⟩, one⟩, wrong⟩ := found
  refine ⟨overtaken, w, Run.of_foldlM reached, List.all_eq_true.mp returned, settled, ?_⟩
  obtain ⟨d, one⟩ := List.length_eq_one_iff.mp (beq_iff_eq.mp one)
  rw [one, List.all_cons, List.all_nil, Bool.and_true] at wrong
  exact ⟨d, one, fun holds => bne_iff_ne.mp wrong holds.1⟩

/-- The run that read the old content is done before the file changes. -/
def waited : List FileAct :=
  .start :: fileSteps 0 1 13 ++ .change (page "new") :: .start :: fileSteps 1 2 13

theorem newest_content_kept_pole : ∃ w : FileWorld, w.file = page "new" ∧
    ∃ d, w.index.active w.file.metadata.documentId = [d] ∧ Holds plainIndexer w.file d := by
  have fold : (waited.foldlM (checked (FileWorld.inOrder plainIndexer)
      (FileWorld.step (fun _ => 0) plainIndexer)) { file := page "old" }).any (fun w =>
        decide (w.file = page "new") && w.settled) = true := by
    decide +kernel
  obtain ⟨w, reached, found⟩ := (Option.any_eq_true _ _).mp fold
  rw [Bool.and_eq_true, decide_eq_true_iff] at found
  obtain ⟨d, one, holds, -⟩ := newest_content_kept (Run.guarded_of_foldlM reached) found.2
  exact ⟨w, found.1, d, one, holds⟩

end OpsAssist.Ingest
