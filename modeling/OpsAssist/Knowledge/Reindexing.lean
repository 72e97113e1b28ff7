/-
# OpsAssist.Knowledge.Reindexing -- only the active version's chunks are active

`deactivate` reads the active version without a lock, and withdraws chunks by key.
`reindexing_invariant` says that the chunks follow the active version in the runs where it finds
no active chunk of another version than the one it read (`World.reads`).
`stale_deactivation_empties` is a run where it does.
-/
import OpsAssist.Knowledge.Versions

namespace OpsAssist.Ingest

set_option autoImplicit false

open Theory

variable {hashtext : String → Int} {w : World} {s s' : Session} {others : List Session}
  {uuid : Uuid}

/-! ## The invariant -/

/-- The rows of one version in a table, active or not. -/
def World.chunksOf (w : World) (table : ChunkTable) (id : Uuid) : List Chunk :=
  (w.chunks table).filter fun c => c.documentId == id

/-- The chunks of one key follow its active version. -/
structure World.Filled (w : World) (key : String) : Prop where
  /-- the active chunks are those of the active version -/
  exact : ∀ d ∈ w.active key, ∀ table, w.current table key = w.chunksOf table d.id
  /-- `chunk_count` many -/
  counted : ∀ d ∈ w.active key,
    (w.current (tableFor d.classification) key).length = d.chunkCount
  /-- in the table for its classification -/
  placed : ∀ d ∈ w.active key, ∀ table, table ≠ tableFor d.classification →
    w.current table key = []
  /-- without an active version no chunk is active -/
  empty : w.active key = [] → ∀ table, w.current table key = []

/-- **The re-indexing invariant of one key.** -/
structure World.Consistent (w : World) (key : String) : Prop extends w.Filled key where
  /-- at most one version is active -/
  sole : (w.active key).length ≤ 1
  /-- the active chunks carry its version -/
  carried : ∀ d ∈ w.active key, ∀ table, ∀ c ∈ w.current table key, c.version = d.version
  /-- a later commit has a higher version -/
  grow : ((w.documents.filter fun d => d.docKey == key).map Document.version).Pairwise (· > ·)

/-- `deactivate` is not about to withdraw a chunk of a version it has not read. -/
def World.reads (w : World) : Act → Bool
  | .advance i _ =>
      match w.sessions[i]? with
      | some { task := .deactivate key (.clearing read (.next table)), .. } =>
          (w.current table key).all fun c => c.documentId == read.id
      | _ => true
  | _ => true

/-! ## What sessions have done to the chunks -/

/-- A row is updated by the session. -/
def Session.Withdrawn (s : Session) (table : ChunkTable) (c : Chunk) : Prop :=
  ∃ u ∈ (s.chunks table).updates, u.1 = Chunk.rowId c

/-- The key's active chunks in the table are withdrawn. -/
def Session.Cleared (s : Session) (w : World) (key : String) (table : ChunkTable) : Prop :=
  ∀ c ∈ w.current table key, s.Withdrawn table c

/-- The tables the UPDATEs have gone through before this one. -/
def ChunkTable.before : ChunkTable → List ChunkTable
  | .chunks => []
  | .confidentialChunks => [.chunks]

/-- How far the UPDATEs have come. -/
def Clearing.Reached (s : Session) (w : World) (key : String) : Clearing → Prop
  | .next table => ∀ t ∈ ChunkTable.before table, s.Cleared w key t
  | .waiting table found => (∀ t ∈ ChunkTable.before table, s.Cleared w key t) ∧
      ∀ c ∈ w.current table key, s.Withdrawn table c ∨ Chunk.rowId c ∈ found

/-- How far the swap has come. -/
def Swap.Reached (s : Session) (w : World) (key : String) : Swap → Prop
  | .numbering | .superseding _ => True
  | .clearing _ point => point.Reached s w key
  | .adding _ | .filling _ _ | .committing _ _ => ∀ table, s.Cleared w key table

/-- The chunks the swap has added. -/
def Swap.filled (r : Ingestion) (table : ChunkTable) : Swap → List Chunk
  | .committing v id => if table = r.table then r.chunkRows id v else []
  | _ => []

/-- The rows a session has updated are withdrawn, and of its key. -/
structure Session.Touches (s : Session) (docs : List Document) (key : String) : Prop where
  off : ∀ table, ∀ u ∈ (s.chunks table).updates, u.2 = false
  ofKey : ∀ table, ∀ u ∈ (s.chunks table).updates, OfKey docs key u.1.documentId

/-- The session has done nothing to the chunks. -/
def Session.Idle (s : Session) : Prop :=
  ∀ table, (s.chunks table).inserts = [] ∧ (s.chunks table).updates = []

/-- The UPDATEs are about rows of one version. -/
def Clearing.Of (id : Uuid) : Clearing → Prop
  | .next _ => True
  | .waiting _ found => ∀ k ∈ found, k.documentId = id

/-- A removal that withdraws chunks: those of the version it has read. -/
structure Removing (s : Session) (read : Document) : Prop where
  inserts : ∀ table, (s.chunks table).inserts = []
  off : ∀ table, ∀ u ∈ (s.chunks table).updates, u.2 = false
  own : ∀ table, ∀ u ∈ (s.chunks table).updates, u.1.documentId = read.id

/-- The version a removal has read is still the active one. -/
def World.Still (w : World) (key : String) (read : Document) : Prop :=
  ∃ d ∈ w.active key, d.id = read.id

/-- What a session has done to the chunks where it stands. -/
def Session.Tracks (s : Session) (w : World) : Prop :=
  match s.task with
  | .ingest r (.swapping _ swap) => s.Touches w.documents r.docKey ∧ swap.Reached s w r.docKey ∧
      ∀ table, (s.chunks table).inserts = swap.filled r table
  | .deactivate key (.clearing read point) => Removing s read ∧ point.Of read.id ∧
      (w.Still key read → point.Reached s w key)
  | .deactivate key (.committing read) => Removing s read ∧
      (w.Still key read → ∀ table, s.Cleared w key table)
  | _ => s.Idle

/-! ## What a step keeps -/

/-- Every chunk is of a document, and carries its key and version. -/
def World.Referring (w : World) : Prop :=
  ∀ table, ∀ c ∈ w.chunks table, ∃ d ∈ w.documents,
    d.id = c.documentId ∧ d.docKey = c.docKey ∧ d.version = c.version

theorem mem_current {table : ChunkTable} {key : String} {c : Chunk} :
    c ∈ w.current table key ↔ c ∈ w.chunks table ∧ currentOf key c = true := List.mem_filter

theorem currentOf_iff {key : String} {c : Chunk} :
    currentOf key c = true ↔ c.docKey = key ∧ c.isActive = true := by
  unfold currentOf
  rw [Bool.and_eq_true, beq_iff_eq]

/-- A withdrawn row is not active. -/
theorem currentOf_off {key : String} {updates : List (ChunkId × Bool)}
    (off : ∀ u ∈ updates, u.2 = false) :
    ∀ u ∈ updates, ∀ c, currentOf key (chunksTable.set u.2 c) = false := by
  intro u mem c
  show (c.docKey == key && u.2) = false
  rw [off u mem, Bool.and_false]

theorem World.Referring.ofKey (referring : w.Referring) {table : ChunkTable} {c : Chunk}
    (mem : c ∈ w.chunks table) : OfKey w.documents c.docKey c.documentId := by
  obtain ⟨d, there, id, key, -⟩ := referring table c mem
  exact ⟨d, there, id, key⟩

/-- Before the first UPDATE there is nothing to have come to. -/
theorem reached_first {key : String} : (Clearing.next .chunks).Reached s w key :=
  fun _ mem => nomatch mem

/-- **The UPDATEs come to every active chunk of the key.** -/
theorem clears_reached {key : String} {point : Clearing} {more : Option Clearing}
    (reached : point.Reached s w key) (cleared : s.Clears w key point s' more) :
    match more with
    | some next => next.Reached s' w key
    | none => ∀ table, s'.Cleared w key table := by
  cases cleared with
  | started table =>
      refine ⟨reached, fun c mem => ?_⟩
      obtain ⟨there, current⟩ := mem_current.mp mem
      exact chunksTable.targets_cover there current
  | ended table found =>
      have now : ∀ c ∈ w.current table key, ∃ u ∈ (chunksTable.update (s.chunks table)
          (w.chunks table) found (currentOf key) false).updates, u.1 = Chunk.rowId c := by
        intro c mem
        obtain ⟨there, current⟩ := mem_current.mp mem
        exact chunksTable.update_covers there current (reached.2 c mem)
      cases table with
      | chunks =>
          intro t mem c here
          cases List.mem_singleton.mp mem
          exact now c here
      | confidentialChunks =>
          intro table c here
          cases table with
          | chunks => exact reached.1 .chunks List.mem_cons_self c here
          | confidentialChunks => exact now c here

theorem clears_inserts {key : String} {point : Clearing} {more : Option Clearing}
    (cleared : s.Clears w key point s' more) (none : ∀ table, (s.chunks table).inserts = []) :
    ∀ table, (s'.chunks table).inserts = [] := by
  intro table
  cases cleared with
  | started _ => exact none table
  | ended at_ found =>
      by_cases same : table = at_
      · subst same
        show (if table = table then _ else _ : Pending _ _ _).inserts = []
        rw [if_pos rfl]
        show (s.chunks table).inserts.map _ = []
        rw [none, List.map_nil]
      · show (if table = at_ then _ else _ : Pending _ _ _).inserts = []
        rw [if_neg same]
        exact none table

/-- What an UPDATE adds to a session's chunks. -/
theorem clears_new {key : String} {point : Clearing} {more : Option Clearing} {table : ChunkTable}
    {u : ChunkId × Bool} (cleared : s.Clears w key point s' more)
    (mem : u ∈ (s'.chunks table).updates) :
    u ∈ (s.chunks table).updates ∨ (u.2 = false ∧
      (∃ found, point = .waiting table found ∧ u.1 ∈ found) ∧
      ∃ c ∈ w.chunks table, Chunk.rowId c = u.1 ∧ c.docKey = key) := by
  cases cleared with
  | started _ => exact .inl mem
  | ended at_ found =>
      by_cases same : table = at_
      · subst same
        have new : u ∈ (if table = table then _ else _ : Pending _ _ _).updates := mem
        rw [if_pos rfl] at new
        rcases chunksTable.update_new new with old | ⟨off, here, c, there, id, current⟩
        · exact .inl old
        · refine .inr ⟨off, ⟨found, rfl, here⟩, c, there, id, ?_⟩
          rw [← (currentOf_iff.mp current).1]
          exact (chunksTable.amend_keeps Chunk.docKey (fun _ _ => rfl) _ c).symm
      · have old : u ∈ (if table = at_ then _ else _ : Pending _ _ _).updates := mem
        rw [if_neg same] at old
        exact .inl old

theorem clears_touches {key : String} {point : Clearing} {more : Option Clearing}
    (referring : w.Referring) (cleared : s.Clears w key point s' more)
    (touches : s.Touches w.documents key) : s'.Touches w.documents key where
  off table u mem := by
    rcases clears_new cleared mem with old | ⟨off, -⟩
    · exact touches.off table u old
    · exact off
  ofKey table u mem := by
    rcases clears_new cleared mem with old | ⟨-, -, c, there, id, same⟩
    · exact touches.ofKey table u old
    · rw [← id, ← same]
      exact referring.ofKey there

/-- A removal finds the chunks of the version it has read only. -/
theorem clears_own {key : String} {read : Document} {point : Clearing} {more : Option Clearing}
    (reads : ∀ table, point = .next table → ∀ c ∈ w.current table key, c.documentId = read.id)
    (removing : Removing s read) (own : point.Of read.id)
    (cleared : s.Clears w key point s' more) :
    Removing s' read ∧ ∀ next ∈ more, next.Of read.id := by
  refine ⟨⟨clears_inserts cleared removing.inserts, fun table u mem => ?_,
    fun table u mem => ?_⟩, ?_⟩
  · rcases clears_new cleared mem with old | ⟨off, -⟩
    · exact removing.off table u old
    · exact off
  · rcases clears_new cleared mem with old | ⟨-, ⟨found, rfl, here⟩, -⟩
    · exact removing.own table u old
    · exact own u.1 here
  · intro next is
    cases cleared with
    | started table =>
        cases is
        intro k mem
        obtain ⟨c, visible, rfl⟩ := List.mem_map.mp mem
        obtain ⟨seen, current⟩ := List.mem_filter.mp visible
        rcases chunksTable.mem_view.mp seen with new | ⟨before, there, rfl⟩
        · rw [removing.inserts] at new
          cases new
        · have same := chunksTable.matching_amend (currentOf_off (removing.off table)) current
          rw [same] at current ⊢
          exact reads table rfl before (mem_current.mpr ⟨there, current⟩)
    | ended table found =>
        cases table with
        | chunks =>
            cases is
            trivial
        | confidentialChunks => cases is

theorem Session.Idle.touches (idle : s.Idle) (docs : List Document) (key : String) :
    s.Touches docs key where
  off table u mem := by
    rw [(idle table).2] at mem
    cases mem
  ofKey table u mem := by
    rw [(idle table).2] at mem
    cases mem

theorem mark_chunks {id : Uuid} {status : DocumentStatus}
    (taken : s.mark w others id status = some s') : s'.chunks = s.chunks := by
  rw [(mark_some taken).2]

/-- The condition on a removal, for its session. -/
def Session.Reads (s : Session) (w : World) : Prop :=
  ∀ key read table, s.task = .deactivate key (.clearing read (.next table)) →
    ∀ c ∈ w.current table key, c.documentId = read.id

/-- **A session that goes on keeps track of the chunks.** -/
theorem goes_tracks (referring : w.Referring) (reads : s.Reads w) (tracks : s.Tracks w)
    (went : s.Goes hashtext w others s') : s'.Tracks w := by
  cases went with
  | locked r at_ free =>
      simp only [Session.Tracks, at_] at tracks
      exact tracks
  | selecting r at_ =>
      simp only [Session.Tracks, at_] at tracks
      exact tracks
  | selected r found active at_ free first =>
      simp only [Session.Tracks, at_] at tracks
      have touches := tracks.touches w.documents r.docKey
      exact ⟨⟨touches.off, touches.ofKey⟩, trivial, fun table => (tracks table).1⟩
  | numbered r active at_ =>
      simp only [Session.Tracks, at_] at tracks
      obtain ⟨touches, -, inserts⟩ := tracks
      exact ⟨⟨touches.off, touches.ofKey⟩, trivial, inserts⟩
  | first r v at_ =>
      simp only [Session.Tracks, at_] at tracks
      obtain ⟨touches, -, inserts⟩ := tracks
      exact ⟨⟨touches.off, touches.ofKey⟩, reached_first, inserts⟩
  | superseded r v active s₁ at_ marked =>
      simp only [Session.Tracks, at_] at tracks
      obtain ⟨touches, -, inserts⟩ := tracks
      obtain ⟨-, rfl⟩ := mark_some marked
      exact ⟨⟨touches.off, touches.ofKey⟩, reached_first, inserts⟩
  | cleared r active v point s₁ more at_ cleared =>
      simp only [Session.Tracks, at_] at tracks
      obtain ⟨touches, reached, inserts⟩ := tracks
      have touches' := clears_touches referring cleared touches
      have reached' := clears_reached reached cleared
      have inserts' := clears_inserts cleared inserts
      cases more with
      | none => exact ⟨⟨touches'.off, touches'.ofKey⟩, reached', inserts'⟩
      | some next =>
          cases next <;> exact ⟨⟨touches'.off, touches'.ofKey⟩, reached', inserts'⟩
  | added r active v uuid at_ fresh =>
      simp only [Session.Tracks, at_] at tracks
      obtain ⟨touches, reached, inserts⟩ := tracks
      exact ⟨⟨touches.off, touches.ofKey⟩, reached, inserts⟩
  | filled r active v id at_ =>
      simp only [Session.Tracks, at_] at tracks
      obtain ⟨touches, reached, inserts⟩ := tracks
      have updates : ∀ table, (if table = r.table then
          { s.chunks r.table with inserts := r.chunkRows id v ++ (s.chunks r.table).inserts }
          else s.chunks table).updates = (s.chunks table).updates := by
        intro table
        split
        · rename_i same
          rw [same]
        · rfl
      refine ⟨⟨fun table u mem => ?_, fun table u mem => ?_⟩, fun table c mem => ?_, fun table => ?_⟩
      · exact touches.off table u (updates table ▸ mem)
      · exact touches.ofKey table u (updates table ▸ mem)
      · obtain ⟨u, there, same⟩ := reached table c mem
        exact ⟨u, (updates table).symm ▸ there, same⟩
      · show (if table = r.table then _ else _ : Pending _ _ _).inserts =
          if table = r.table then _ else _
        split
        · show r.chunkRows id v ++ (s.chunks r.table).inserts = _
          rw [inserts]
          exact List.append_nil _
        · exact inserts table
  | read key d at_ mem =>
      simp only [Session.Tracks, at_] at tracks
      exact tracks
  | marked key d s₁ at_ marked =>
      simp only [Session.Tracks, at_] at tracks
      obtain ⟨-, rfl⟩ := mark_some marked
      have touches := tracks.touches w.documents key
      refine ⟨⟨fun table => (tracks table).1, touches.off, fun table u mem => ?_⟩, trivial,
        fun _ => reached_first⟩
      have none := (tracks table).2 ▸ mem
      cases none
  | withdrawn key d point s₁ more at_ cleared =>
      simp only [Session.Tracks, at_] at tracks
      obtain ⟨removing, own, reached⟩ := tracks
      have finds : ∀ table, point = .next table → ∀ c ∈ w.current table key, c.documentId = d.id := by
        rintro table rfl
        exact reads key d table at_
      obtain ⟨removing', own'⟩ := clears_own finds removing own cleared
      have reached' := fun still => clears_reached (reached still) cleared
      cases more with
      | none => exact ⟨⟨removing'.inserts, removing'.off, removing'.own⟩, reached'⟩
      | some next =>
          refine ⟨⟨removing'.inserts, removing'.off, removing'.own⟩, own' next rfl, ?_⟩
          cases next <;> exact reached'

/-! ## What a commit makes of the chunks -/

/-- The world once a session has committed. -/
def World.committed (w : World) (s : Session) (sessions : List Session) : World where
  documents := committedBy s w.documents
  chunks table := chunksTable.view (s.chunks table) (w.chunks table)
  sessions := sessions

theorem Session.Tracks.off (tracks : s.Tracks w) :
    ∀ table, ∀ u ∈ (s.chunks table).updates, u.2 = false := by
  unfold Session.Tracks at tracks
  split at tracks
  · exact tracks.1.off
  · exact tracks.1.off
  · exact tracks.1.off
  · exact (tracks.touches [] "").off

/-- A chunk is inserted by the session that publishes its version. -/
theorem Session.Tracks.inserted (tracks : s.Tracks w) {table : ChunkTable} {c : Chunk}
    (mem : c ∈ (s.chunks table).inserts) : ∃ r active v id,
      s.task = .ingest r (.swapping active (.committing v id)) ∧ c ∈ r.chunkRows id v := by
  unfold Session.Tracks at tracks
  split at tracks
  · rename_i r active swap at_
    rw [tracks.2.2 table] at mem
    cases swap with
    | committing v id =>
        have here : c ∈ if table = r.table then r.chunkRows id v else [] := mem
        split at here
        · exact ⟨r, active, v, id, at_, here⟩
        · cases here
    | numbering | superseding _ | clearing _ _ | adding _ | filling _ _ => cases mem
  · rw [tracks.1.inserts] at mem
    cases mem
  · rw [tracks.1.inserts] at mem
    cases mem
  · rw [(tracks table).1] at mem
    cases mem

theorem chunkRows_mem {r : Ingestion} {id : Uuid} {v : Nat} {c : Chunk}
    (mem : c ∈ r.chunkRows id v) :
    c.documentId = id ∧ c.docKey = r.docKey ∧ c.version = v ∧ c.isActive = true := by
  obtain ⟨text, -, rfl⟩ := List.mem_map.mp mem
  exact ⟨rfl, rfl, rfl, rfl⟩

/-- A session that inserts chunks has added their document. -/
theorem Session.Tracks.document (tracks : s.Tracks w) (fits : s.Fits w.documents)
    {table : ChunkTable} {c : Chunk} (mem : c ∈ (s.chunks table).inserts) :
    ∃ n ∈ s.documents.inserts, n.id = c.documentId ∧ n.docKey = c.docKey ∧
      n.version = c.version := by
  obtain ⟨r, active, v, id, at_, here⟩ := tracks.inserted mem
  simp only [Session.Fits, at_] at fits
  obtain ⟨documentId, docKey, version, -⟩ := chunkRows_mem here
  refine ⟨r.document id v, ?_, documentId.symm, docKey.symm, version.symm⟩
  rw [fits.added]
  exact List.mem_cons_self

theorem committed_current (tracks : s.Tracks w) (sessions : List Session) (table : ChunkTable)
    (key : String) : (w.committed s sessions).current table key =
      (s.chunks table).inserts.filter (currentOf key) ++ (w.current table key).filter
        fun c => !(s.chunks table).updates.any fun u => u.1 == Chunk.rowId c :=
  chunksTable.filter_view (currentOf_off (tracks.off table)) (w.chunks table)

/-- Of a key the session adds no version to, chunks are withdrawn only. -/
theorem committed_current_other (tracks : s.Tracks w) (fits : s.Fits w.documents)
    (sessions : List Session) (table : ChunkTable) {key : String}
    (other : ¬s.Adds key) : (w.committed s sessions).current table key =
      (w.current table key).filter
        fun c => !(s.chunks table).updates.any fun u => u.1 == Chunk.rowId c := by
  have none : (s.chunks table).inserts.filter (currentOf key) = [] := by
    apply List.filter_eq_nil_iff.mpr
    intro c mem current
    obtain ⟨n, there, -, same, -⟩ := tracks.document fits mem
    exact other ⟨n, there, same.trans (currentOf_iff.mp current).1⟩
  rw [committed_current tracks, none, List.nil_append]

theorem committed_current_sub (tracks : s.Tracks w) (fits : s.Fits w.documents)
    (sessions : List Session) {table : ChunkTable} {key : String}
    (other : ¬s.Adds key) {c : Chunk}
    (mem : c ∈ (w.committed s sessions).current table key) : c ∈ w.current table key := by
  rw [committed_current_other tracks fits sessions table other] at mem
  exact (List.mem_filter.mp mem).1

/-- What is cleared leaves no active chunk behind. -/
theorem committed_cleared {key : String} {table : ChunkTable} (cleared : s.Cleared w key table) :
    ((w.current table key).filter
      fun c => !(s.chunks table).updates.any fun u => u.1 == Chunk.rowId c) = [] := by
  apply List.filter_eq_nil_iff.mpr
  intro c mem kept
  obtain ⟨u, there, same⟩ := cleared c mem
  have hit : ((s.chunks table).updates.any fun u => u.1 == Chunk.rowId c) = true :=
    List.any_eq_true.mpr ⟨u, there, beq_iff_eq.mpr same⟩
  rw [hit] at kept
  cases kept

theorem committed_referring (referring : w.Referring) (fits : s.Fits w.documents)
    (tracks : s.Tracks w) (sessions : List Session) : (w.committed s sessions).Referring := by
  intro table c mem
  rcases chunksTable.mem_view.mp mem with new | ⟨before, there, rfl⟩
  · obtain ⟨n, added, same⟩ := tracks.document fits new
    exact ⟨n, documentsTable.mem_view.mpr (.inl added), same⟩
  · obtain ⟨d, here, id, key, version⟩ := referring table before there
    refine ⟨documentsTable.amend s.documents.updates d,
      documentsTable.mem_view.mpr (.inr ⟨d, here, rfl⟩), ?_, ?_, ?_⟩
    · rw [show (documentsTable.amend s.documents.updates d).id = d.id from
        documentsTable.key_amend _ d, id]
      exact (chunksTable.amend_keeps Chunk.documentId (fun _ _ => rfl) _ before).symm
    · rw [amend_docKey, key]
      exact (chunksTable.amend_keeps Chunk.docKey (fun _ _ => rfl) _ before).symm
    · rw [amend_version, version]
      exact (chunksTable.amend_keeps Chunk.version (fun _ _ => rfl) _ before).symm

/-- Two versions of one identifier are one. -/
theorem Sound.sameDocument (sound : Sound hashtext w) {d e : Document} (left : d ∈ w.documents)
    (right : e ∈ w.documents) (same : d.id = e.id) : d = e :=
  List.inj_on_of_nodup_map sound.ids left right same

theorem Sound.sameKey (sound : Sound hashtext w) {key : String} {id : Uuid}
    (there : OfKey w.documents key id) {d : Document} (mem : d ∈ w.documents) (same : d.id = id) :
    d.docKey = key := by
  obtain ⟨e, here, id, docKey⟩ := there
  rw [sound.sameDocument mem here (same.trans id.symm)]
  exact docKey

/-- A key whose active version is left alone, with its chunks. -/
theorem World.Filled.leftAlone {key : String} (filled : w.Filled key) (fits : s.Fits w.documents)
    (tracks : s.Tracks w) (sessions : List Session) (other : ¬s.Adds key)
    (active : (w.committed s sessions).active key = w.active key)
    (apart : ∀ table, ∀ u ∈ (s.chunks table).updates, ∀ d ∈ w.active key,
      d.id ≠ u.1.documentId) : (w.committed s sessions).Filled key := by
  have current : ∀ table, (w.committed s sessions).current table key = w.current table key := by
    intro table
    rw [committed_current_other tracks fits sessions table other]
    apply List.filter_eq_self.mpr
    intro c mem
    have miss : ((s.chunks table).updates.any fun u => u.1 == Chunk.rowId c) = false := by
      apply List.any_eq_false.mpr
      intro u there same
      cases found : w.active key with
      | nil =>
          rw [filled.empty found table] at mem
          cases mem
      | cons d _ =>
          have isActive : d ∈ w.active key := found ▸ List.mem_cons_self
          rw [filled.exact d isActive table] at mem
          have ofDocument := beq_iff_eq.mp (List.mem_filter.mp mem).2
          apply apart table u there d isActive
          rw [beq_iff_eq.mp same]
          exact ofDocument.symm
    rw [miss]
    rfl
  have own : ∀ d ∈ w.active key, ∀ table,
      (w.committed s sessions).chunksOf table d.id = w.chunksOf table d.id := by
    intro d isActive table
    have none : (s.chunks table).inserts.filter (fun c => c.documentId == d.id) = [] := by
      apply List.filter_eq_nil_iff.mpr
      intro c mem same
      obtain ⟨n, added, id, -⟩ := tracks.document fits mem
      apply (fits.inserted added).2 d (mem_active.mp isActive).1
      rw [id, beq_iff_eq.mp same]
    show (_ ++ _ : List Chunk).filter _ = _
    rw [List.filter_append, none, List.nil_append]
    apply chunksTable.filter_amend_apart
    · intro c
      rw [chunksTable.amend_keeps Chunk.documentId fun _ _ => rfl]
    · intro c mem same u there rowId
      apply apart table u there d isActive
      rw [rowId]
      exact (beq_iff_eq.mp same).symm
  refine ⟨?_, ?_, ?_, ?_⟩
  · intro d isActive table
    rw [active] at isActive
    rw [current, own d isActive, filled.exact d isActive]
  · intro d isActive
    rw [active] at isActive
    rw [current, filled.counted d isActive]
  · intro d isActive table elsewhere
    rw [active] at isActive
    rw [current, filled.placed d isActive table elsewhere]
  · intro none table
    rw [active] at none
    rw [current, filled.empty none]

/-- The key of a swap that ends. -/
theorem published_filled {r : Ingestion} {active : Option Document} {v : Nat} {id : Uuid}
    (referring : w.Referring) (fits : s.Fits w.documents)
    (tracks : s.Tracks w) (at_ : s.task = .ingest r (.swapping active (.committing v id)))
    (sessions : List Session) : (w.committed s sessions).Filled r.docKey := by
  have publishes : Publishes w.documents s r v id := by
    simp only [Session.Fits, at_] at fits
    exact Swapping.publishes at_ fits
  have done := tracks
  simp only [Session.Tracks, at_] at done
  obtain ⟨touches, reached, inserts⟩ := done
  have rows : ∀ table, (s.chunks table).inserts =
      if table = r.table then r.chunkRows id v else [] := inserts
  have current : ∀ table, (w.committed s sessions).current table r.docKey =
      (s.chunks table).inserts := by
    intro table
    rw [committed_current tracks, committed_cleared (reached table), List.append_nil]
    apply List.filter_eq_self.mpr
    intro c mem
    rw [rows] at mem
    split at mem
    · obtain ⟨-, docKey, -, isActive⟩ := chunkRows_mem mem
      exact currentOf_iff.mpr ⟨docKey, isActive⟩
    · cases mem
  have own : ∀ table, (w.committed s sessions).chunksOf table id = (s.chunks table).inserts := by
    intro table
    show (_ ++ _ : List Chunk).filter _ = _
    rw [List.filter_append]
    have new : (s.chunks table).inserts.filter (fun c => c.documentId == id) =
        (s.chunks table).inserts := by
      apply List.filter_eq_self.mpr
      intro c mem
      rw [rows] at mem
      split at mem
      · exact beq_iff_eq.mpr (chunkRows_mem mem).1
      · cases mem
    have old : ((w.chunks table).map (chunksTable.amend (s.chunks table).updates)).filter
        (fun c => c.documentId == id) = [] := by
      apply List.filter_eq_nil_iff.mpr
      intro c mem same
      obtain ⟨before, there, rfl⟩ := List.mem_map.mp mem
      obtain ⟨d, here, ofDocument, -⟩ := referring table before there
      have added : r.document id v ∈ s.documents.inserts := by
        rw [publishes.added]
        exact List.mem_cons_self
      apply (fits.inserted added).2 d here
      rw [ofDocument, ← beq_iff_eq.mp same]
      exact (chunksTable.amend_keeps Chunk.documentId (fun _ _ => rfl) _ before).symm
    rw [new, old, List.append_nil]
  have only : ∀ d ∈ (w.committed s sessions).active r.docKey, d = r.document id v := by
    intro d mem
    have here : d ∈ (committedBy s w.documents).filter (activeOf r.docKey) := mem
    rw [publishes.active] at here
    exact List.mem_singleton.mp here
  refine ⟨?_, ?_, ?_, ?_⟩
  · intro d mem table
    rw [only d mem, current]
    exact (own table).symm
  · intro d mem
    rw [only d mem, current, rows]
    have same : tableFor (r.document id v).classification = r.table := rfl
    rw [if_pos same]
    exact List.length_map _
  · intro d mem table elsewhere
    rw [only d mem] at elsewhere
    have other : table ≠ r.table := elsewhere
    rw [current, rows, if_neg other]
  · intro none
    have one : (w.committed s sessions).active r.docKey = [r.document id v] := publishes.active
    rw [one] at none
    cases none

/-- The active versions of a key whose rows a commit does not mark. -/
theorem committed_active {key : String} (fits : s.Fits w.documents) (sessions : List Session)
    (other : ¬s.Adds key)
    (apart : ∀ u ∈ s.documents.updates, ∀ d ∈ w.active key, u.1 ≠ d.id) :
    (w.committed s sessions).active key = w.active key := by
  show (committedBy s w.documents).filter (activeOf key) = _
  rw [committedBy_other fits other]
  apply List.filter_eq_self.mpr
  intro d mem
  have miss : (s.documents.updates.any fun u => u.1 == d.id) = false := by
    apply List.any_eq_false.mpr
    intro u there same
    exact apart u there d mem (beq_iff_eq.mp same)
  rw [miss]
  rfl

/-- An active version of one key is none of another's. -/
theorem Sound.foreign (sound : Sound hashtext w) {key mine : String} (ne : key ≠ mine) {id : Uuid}
    (there : OfKey w.documents mine id) : ∀ d ∈ w.active key, d.id ≠ id := by
  intro d mem same
  obtain ⟨here, isActive⟩ := mem_active.mp mem
  apply ne
  rw [← (activeOf_iff.mp isActive).1, sound.sameKey there here same]

/-- A swap marks a version of its key. -/
theorem Swapping.ofKey {docs : List Document} {r : Ingestion} {active : Option Document}
    {swap : Swap} (known : Swapping docs s r active swap) :
    ∀ u ∈ s.documents.updates, OfKey docs r.docKey u.1 := by
  intro u mem
  obtain ⟨d, is, rfl⟩ := Swap.marks_mem (known.marks ▸ mem)
  have there : d ∈ docs.filter (activeOf r.docKey) := by
    rw [known.sole]
    exact Option.mem_toList.mpr is
  obtain ⟨here, isActive⟩ := List.mem_filter.mp there
  exact ⟨d, here, rfl, (activeOf_iff.mp isActive).1⟩

/-- A commit about the versions of one key leaves the others alone. -/
theorem World.Filled.foreign {key mine : String} (filled : w.Filled key)
    (sound : Sound hashtext w) (fits : s.Fits w.documents) (tracks : s.Tracks w)
    (sessions : List Session) (ne : key ≠ mine) (other : ¬s.Adds key)
    (marks : ∀ u ∈ s.documents.updates, OfKey w.documents mine u.1)
    (touches : ∀ table, ∀ u ∈ (s.chunks table).updates, OfKey w.documents mine u.1.documentId) :
    (w.committed s sessions).Filled key := by
  apply filled.leftAlone fits tracks sessions other
  · apply committed_active fits sessions other
    intro u mem d there same
    exact sound.foreign ne (marks u mem) d there same.symm
  · intro table u mem
    exact sound.foreign ne (touches table u mem)

/-- A commit of a transaction that has done nothing. -/
theorem World.Filled.quiet {key : String} (filled : w.Filled key) (quiet : s.Quiet)
    (idle : s.Idle) (sessions : List Session) : (w.committed s sessions).Filled key := by
  have documents : (w.committed s sessions).documents = w.documents :=
    documentsTable.view_quiet quiet.inserts quiet.updates w.documents
  have chunks : (w.committed s sessions).chunks = w.chunks := funext fun table =>
    chunksTable.view_quiet (idle table).1 (idle table).2 (w.chunks table)
  refine ⟨?_, ?_, ?_, ?_⟩ <;>
    simp only [World.active, World.current, World.chunksOf, documents, chunks]
  · exact filled.exact
  · exact filled.counted
  · exact filled.placed
  · exact filled.empty

theorem eq_singleton {α : Type} {l : List α} (short : l.length ≤ 1) {a : α} (mem : a ∈ l) :
    l = [a] := by
  cases l with
  | nil => cases mem
  | cons x rest =>
      have none : rest = [] := by
        rw [List.length_cons] at short
        exact List.length_eq_zero_iff.mp (by omega)
      subst none
      rw [List.mem_singleton.mp mem]

/-- The key of a removal that ends. -/
theorem removed_filled {key : String} {read : Document} (sound : Sound hashtext w)
    (filled : w.Filled key) (fits : s.Fits w.documents) (tracks : s.Tracks w)
    (at_ : s.task = .deactivate key (.committing read)) (sessions : List Session) :
    (w.committed s sessions).Filled key := by
  have known := fits
  have done := tracks
  simp only [Session.Fits, at_] at known
  simp only [Session.Tracks, at_] at done
  obtain ⟨removing, cleared⟩ := done
  have other : ¬s.Adds key := by
    rintro ⟨n, mem, -⟩
    rw [known.inserts] at mem
    cases mem
  by_cases still : w.Still key read
  · obtain ⟨d, mem, same⟩ := still
    have none : (w.committed s sessions).active key = [] := by
      show (committedBy s w.documents).filter (activeOf key) = _
      rw [committedBy_other fits other, known.updates]
      apply List.filter_eq_nil_iff.mpr
      intro e here kept
      rw [show w.documents.filter (activeOf key) = [d] from eq_singleton (sound.sole key) mem] at here
      rw [List.mem_singleton.mp here, List.any_cons, same, beq_self_eq_true] at kept
      cases kept
    have rows : ∀ table, (w.committed s sessions).current table key = [] := by
      intro table
      rw [committed_current_other tracks fits sessions table other]
      exact committed_cleared (cleared ⟨d, mem, same⟩ table)
    refine ⟨?_, ?_, fun _ _ table _ => rows table, fun _ table => rows table⟩
    · intro e here
      rw [none] at here
      cases here
    · intro e here
      rw [none] at here
      cases here
  · apply filled.leftAlone fits tracks sessions other
    · apply committed_active fits sessions other
      intro u mem d there same
      rw [known.updates] at mem
      cases List.mem_singleton.mp mem
      exact still ⟨d, there, same.symm⟩
    · intro table u mem d there same
      rw [removing.own table u mem] at same
      exact still ⟨d, there, same⟩

/-- **A commit keeps the chunks of every key with its active version.** -/
theorem ends_filled {task : Task} (sound : Sound hashtext w) (referring : w.Referring)
    (filled : ∀ key, w.Filled key) (fits : s.Fits w.documents) (tracks : s.Tracks w)
    (ends : s.Ends w task) (sessions : List Session) (key : String) :
    (w.committed s sessions).Filled key := by
  have known := fits
  have done := tracks
  cases ends with
  | kept r active at_ | checked r at_ | missing mine at_ =>
      simp only [Session.Fits, at_] at known
      simp only [Session.Tracks, at_] at done
      exact (filled key).quiet known done sessions
  | same r found active at_ =>
      simp only [Session.Fits, at_] at known
      simp only [Session.Tracks, at_] at done
      exact (filled key).quiet known.1 done sessions
  | swapped r active v id at_ =>
      by_cases own : key = r.docKey
      · subst own
        exact published_filled referring fits tracks at_ sessions
      · simp only [Session.Fits, at_] at known
        simp only [Session.Tracks, at_] at done
        apply (filled key).foreign sound fits tracks sessions own
        · apply fits.not_adds
          simp only [Session.serialized, at_]
          exact fun same => own (Option.some.inj same).symm
        · exact known.ofKey
        · exact done.1.ofKey
  | removed mine read at_ =>
      by_cases own : key = mine
      · subst own
        exact removed_filled sound (filled key) fits tracks at_ sessions
      · simp only [Session.Fits, at_] at known
        simp only [Session.Tracks, at_] at done
        apply (filled key).foreign sound fits tracks sessions own
        · rintro ⟨n, mem, -⟩
          rw [known.inserts] at mem
          cases mem
        · intro u mem
          rw [known.updates] at mem
          cases List.mem_singleton.mp mem
          exact known.ofKey
        · intro table u mem
          rw [done.1.own table u mem]
          exact known.ofKey

/-! ## Runs -/

theorem Clearing.Reached.mono {w' : World} {key : String} {point : Clearing}
    (reached : point.Reached s w key)
    (fewer : ∀ table, ∀ c ∈ w'.current table key, c ∈ w.current table key) :
    point.Reached s w' key := by
  cases point with
  | next table => exact fun t mem c here => reached t mem c (fewer t c here)
  | waiting table found =>
      exact ⟨fun t mem c here => reached.1 t mem c (fewer t c here),
        fun c here => reached.2 c (fewer table c here)⟩

theorem Swap.Reached.mono {w' : World} {key : String} {swap : Swap}
    (reached : swap.Reached s w key)
    (fewer : ∀ table, ∀ c ∈ w'.current table key, c ∈ w.current table key) :
    swap.Reached s w' key := by
  cases swap with
  | numbering | superseding _ => trivial
  | clearing v point => exact Clearing.Reached.mono reached fewer
  | adding _ | filling _ _ | committing _ _ => exact fun t c here => reached t c (fewer t c here)

theorem Session.Touches.committed {docs : List Document} {key : String}
    (touches : s.Touches docs key) (o : Session) : s.Touches (committedBy o docs) key where
  off := touches.off
  ofKey table u mem := (touches.ofKey table u mem).committed o

/-- A version that is still active after a commit was so before, and its key is not one the
commit adds a version to. -/
theorem Session.Ends.still {task : Task} {key : String} {read : Document} (ends : s.Ends w task)
    (fits : s.Fits w.documents) (sessions : List Session) (ofKey : OfKey w.documents key read.id)
    (still : (w.committed s sessions).Still key read) : w.Still key read ∧ ¬s.Adds key := by
  obtain ⟨d, mem, same⟩ := still
  have here : d ∈ (committedBy s w.documents).filter (activeOf key) := mem
  have other : ¬s.Adds key := by
    rintro ⟨n, added, own⟩
    rcases ends.inserts fits with none | ⟨r, v, id, publishes⟩
    · rw [none] at added
      cases added
    · have first := publishes.added ▸ added
      cases List.mem_singleton.mp first
      have only : d ∈ [r.document id v] := by
        rw [← publishes.active]
        rw [← own] at here
        exact here
      rw [List.mem_singleton.mp only] at same
      obtain ⟨e, there, isRead, -⟩ := ofKey
      exact (fits.inserted added).2 e there (isRead.trans same.symm)
  rw [committedBy_other fits other] at here
  exact ⟨⟨d, (List.mem_filter.mp here).1, same⟩, other⟩

/-- **What another session keeps track of is still so after the commit.** -/
theorem Session.Tracks.committed {o : Session} {task : Task} (known : o.Tracks w)
    (place : o.Fits w.documents) (ends : s.Ends w task) (fits : s.Fits w.documents)
    (tracks : s.Tracks w) (apart : Session.Apart hashtext o s) (sessions : List Session) :
    o.Tracks (w.committed s sessions) := by
  have fewer : ∀ {key}, ¬s.Adds key → ∀ table, ∀ c ∈ (w.committed s sessions).current table key,
      c ∈ w.current table key :=
    fun other table c mem => committed_current_sub tracks fits sessions other mem
  unfold Session.Tracks at known ⊢
  unfold Session.Fits at place
  split at known
  · rename_i r active swap at_
    have other : ¬s.Adds r.docKey := by
      apply fits.not_adds
      intro theirs
      have mine : o.serialized = some r.docKey := by simp only [Session.serialized, at_]
      exact apart.keys mine theirs rfl
    obtain ⟨touches, reached, inserts⟩ := known
    exact ⟨touches.committed s, reached.mono (fewer other), inserts⟩
  · rename_i key read point at_
    rw [at_] at place
    obtain ⟨removing, own, reached⟩ := known
    refine ⟨⟨removing.inserts, removing.off, removing.own⟩, own, fun still => ?_⟩
    obtain ⟨before, other⟩ := ends.still fits sessions place.ofKey still
    exact (reached before).mono (fewer other)
  · rename_i key read at_
    rw [at_] at place
    obtain ⟨removing, cleared⟩ := known
    refine ⟨⟨removing.inserts, removing.off, removing.own⟩, fun still table c mem => ?_⟩
    obtain ⟨before, other⟩ := ends.still fits sessions place.ofKey still
    exact cleared before table c (fewer other table c mem)
  · exact known

/-- What the tables are in every state such a run reaches. -/
structure Indexed (hashtext : String → Int) (w : World) : Prop where
  sound : Sound hashtext w
  referring : w.Referring
  filled : ∀ key, w.Filled key
  tracks : ∀ s ∈ w.sessions, s.Tracks w

theorem Task.idle_tracks {task : Task} (idle : task.idle = true) :
    Session.Tracks { task } w := by
  unfold Session.Tracks
  unfold Task.idle at idle
  split at idle
  all_goals first | exact fun _ => ⟨rfl, rfl⟩ | cases idle

/-- The chunks of a key do not depend on who is at work. -/
theorem World.Filled.beside {key : String} (filled : w.Filled key) (sessions : List Session) :
    { w with sessions }.Filled key :=
  ⟨filled.exact, filled.counted, filled.placed, filled.empty⟩

/-- The condition on the step is the condition on its session. -/
theorem reads_session {i : Nat} (reads : w.reads (.advance i uuid) = true)
    (there : w.sessions[i]? = some s) : s.Reads w := by
  intro key read table at_ c mem
  unfold World.reads at reads
  dsimp only at reads
  rw [there] at reads
  obtain ⟨task, documents, chunks⟩ := s
  cases at_
  exact beq_iff_eq.mp (List.all_eq_true.mp reads c mem)

/-- **One step that meets the condition keeps the chunks with their versions.** -/
theorem steps_indexed {act : Act} {w' : World} (reads : w.reads act = true)
    (steps : w.Steps hashtext act w') (indexed : Indexed hashtext w) : Indexed hashtext w' := by
  have sound := steps_sound steps indexed.sound
  cases steps with
  | ingesting _ | deactivating _ =>
      refine ⟨sound, indexed.referring, fun key => (indexed.filled key).beside _, fun o mem => ?_⟩
      rcases List.mem_append.mp mem with old | new
      · exact indexed.tracks o old
      · rw [List.mem_singleton.mp new]
        exact Task.idle_tracks rfl
  | went i uuid s s' there went =>
      have tracks := indexed.tracks s (List.mem_of_getElem? there)
      have next := goes_tracks indexed.referring (reads_session reads there) tracks went
      refine ⟨sound, indexed.referring, fun key => (indexed.filled key).beside _, fun o mem => ?_⟩
      rcases mem_set mem with rfl | other
      · exact next
      · exact indexed.tracks o (List.mem_of_mem_eraseIdx other)
  | ended i uuid s task there ends idle =>
      have fits := indexed.sound.fits s (List.mem_of_getElem? there)
      have tracks := indexed.tracks s (List.mem_of_getElem? there)
      have apart := indexed.sound.apart.others there
      refine ⟨sound, committed_referring indexed.referring fits tracks _,
        ends_filled indexed.sound indexed.referring indexed.filled fits tracks ends _,
        fun o mem => ?_⟩
      rcases mem_set mem with rfl | other
      · exact Task.idle_tracks idle
      · have here := List.mem_of_mem_eraseIdx other
        exact (indexed.tracks o here).committed (indexed.sound.fits o here) ends fits tracks
          (apart o other).symm _
  | aborted i s task there idle =>
      refine ⟨sound, indexed.referring, fun key => (indexed.filled key).beside _, fun o mem => ?_⟩
      rcases mem_set mem with rfl | other
      · exact Task.idle_tracks idle
      · exact indexed.tracks o (List.mem_of_mem_eraseIdx other)

theorem empty_indexed : Indexed hashtext {} where
  sound := empty_sound
  referring _ _ mem := nomatch mem
  filled _ := ⟨fun _ mem => (nomatch mem), fun _ mem => (nomatch mem), fun _ mem => (nomatch mem),
    fun _ _ => rfl⟩
  tracks _ mem := nomatch mem

theorem Indexed.consistent (indexed : Indexed hashtext w) (key : String) : w.Consistent key where
  toFilled := indexed.filled key
  sole := indexed.sound.sole key
  carried d mem table c here := by
    have filled := indexed.filled key
    rw [filled.exact d mem] at here
    obtain ⟨there, same⟩ := List.mem_filter.mp here
    obtain ⟨e, isDocument, id, -, version⟩ := indexed.referring table c there
    rw [← version, indexed.sound.sameDocument isDocument (mem_active.mp mem).1
      (id.trans (beq_iff_eq.mp same))]
  grow := by
    rw [List.pairwise_map]
    have grows : (w.documents.filter fun d => d.docKey == key).Pairwise
        fun d e => d.docKey = e.docKey → e.version < d.version :=
      indexed.sound.ordered.sublist List.filter_sublist
    refine grows.imp_of_mem fun left right newer => newer ?_
    rw [beq_iff_eq.mp (List.mem_filter.mp left).2, beq_iff_eq.mp (List.mem_filter.mp right).2]

/-- **Re-indexing keeps its invariant in every run in which no removal finds an active chunk of
another version than the one it has read.** -/
theorem reindexing_invariant {acts : List Act}
    (run : Run (Guarded (fun w act => w.reads act = true) (TryStepOf (World.step hashtext))) {}
      acts w) (key : String) : w.Consistent key := by
  have indexed : Indexed hashtext w := by
    apply run.invariant ?_ empty_indexed
    rintro v act v' ⟨reads, step⟩ indexed
    exact steps_indexed reads (step_steps step) indexed
  exact indexed.consistent key

/-! ## Poles -/

/-- One file of one chunk, in two contents. -/
def guideText (digest : String) : Ingestion where
  metadata := ⟨"KB-ENG-001", "Guide", "engineering", .internal, "2026-09-01", none⟩
  mimeType := "text/markdown"
  sourcePath := "guide.md"
  digest := digest
  modelId := "embed"
  chunkerId := "parent_child/v2"
  chunks := [⟨0, 0, "Guide", digest, digest⟩]

/-- The statements of a session, up to a number of them. -/
def advances (i : Nat) (uuid : Uuid) (n : Nat) : List Act := List.replicate n (.advance i uuid)

/-- A first version; a removal reads it; a second version; the removal goes on. -/
def staleRemoval : List Act :=
  .ingest (guideText "a") :: advances 0 1 13 ++
    .deactivate "KB-ENG-001" :: advances 1 0 1 ++
    .ingest (guideText "b") :: advances 2 2 13 ++ advances 1 0 6

/-- **A removal that has read the version before withdraws the chunks of the active one.** -/
theorem stale_deactivation_empties : ∃ acts w,
    Run (TryStepOf (World.step fun _ => 0)) {} acts w ∧ ∃ key, ¬w.Consistent key := by
  have fold : (staleRemoval.foldlM (World.step fun _ => 0) {}).any (fun w =>
      (w.active "KB-ENG-001").any fun d =>
        (w.current (tableFor d.classification) "KB-ENG-001").length != d.chunkCount) = true := by
    decide +kernel
  obtain ⟨w, reached, wrong⟩ := (Option.any_eq_true _ _).mp fold
  obtain ⟨d, mem, short⟩ := List.any_eq_true.mp wrong
  refine ⟨staleRemoval, w, Run.of_foldlM reached, "KB-ENG-001", fun consistent => ?_⟩
  exact bne_iff_ne.mp short (consistent.counted d mem)

/-- The removal marks the version first, and the second ingestion waits for it. -/
def promptRemoval : List Act :=
  .ingest (guideText "a") :: advances 0 1 13 ++
    .deactivate "KB-ENG-001" :: advances 1 0 2 ++
    .ingest (guideText "b") :: advances 2 2 3 ++ advances 1 0 5 ++ advances 2 2 10

theorem reindexing_invariant_pole : ∃ w : World, w.Consistent "KB-ENG-001" ∧
    (w.active "KB-ENG-001").map Document.version = [2] := by
  have fold : (promptRemoval.foldlM (checked World.reads (World.step fun _ => 0)) {}).any (fun w =>
      (w.active "KB-ENG-001").map Document.version == [2]) = true := by
    decide +kernel
  obtain ⟨w, reached, version⟩ := (Option.any_eq_true _ _).mp fold
  exact ⟨w, reindexing_invariant (Run.guarded_of_foldlM reached) "KB-ENG-001",
    beq_iff_eq.mp version⟩

end OpsAssist.Ingest
