/-
# OpsAssist.Knowledge.Versions -- one active version, whatever the order of the statements

A step of a session goes on with its transaction or ends it (`turn_from`).  An ingestion past
its locked SELECT knows the active version (`Swapping`): it holds the row's lock, and the
advisory lock keeps every other ingestion of the key away.  `documents_sound` holds of every
run: one active version at most, and versions that grow.
-/
import OpsAssist.Knowledge.Ingest

namespace OpsAssist.Ingest

set_option autoImplicit false

open Theory

/-! ## What sessions know of the documents -/

/-- The version the swap has settled on. -/
def Swap.version? : Swap → Option Nat
  | .numbering => none
  | .superseding v | .clearing v _ | .adding v | .filling v _ | .committing v _ => some v

/-- What the swap has set in the active version's row. -/
def Swap.marks (active : Option Document) : Swap → List (Uuid × DocumentStatus)
  | .numbering | .superseding _ => []
  | _ => (active.map fun d => (d.id, .superseded)).toList

/-- The row the swap has added. -/
def Swap.added (r : Ingestion) : Swap → List Document
  | .filling v id | .committing v id => [r.document id v]
  | _ => []

theorem Swap.marks_mem {active : Option Document} {u : Uuid × DocumentStatus} :
    ∀ {swap : Swap}, u ∈ swap.marks active → ∃ d ∈ active, u = (d.id, .superseded)
  | .numbering, mem | .superseding _, mem => nomatch mem
  | .clearing _ _, mem | .adding _, mem | .filling _ _, mem | .committing _ _, mem => by
      obtain ⟨d, is, same⟩ := Option.map_eq_some_iff.mp (Option.mem_toList.mp mem)
      exact ⟨d, is, same.symm⟩

theorem Swap.added_mem {r : Ingestion} {n : Document} :
    ∀ {swap : Swap}, n ∈ swap.added r → ∃ v id, n = r.document id v
  | .filling v id, mem | .committing v id, mem => ⟨v, id, List.mem_singleton.mp mem⟩
  | .numbering, mem | .superseding _, mem | .clearing _ _, mem | .adding _, mem => nomatch mem

/-- What a swap knows and has done. -/
structure Swapping (docs : List Document) (s : Session) (r : Ingestion) (active : Option Document)
    (swap : Swap) : Prop where
  sole : docs.filter (activeOf r.docKey) = active.toList
  held : ∀ d ∈ active, s.documents.holds d.id = true
  newer : ∀ v ∈ swap.version?, ∀ d ∈ docs, d.docKey = r.docKey → d.version < v
  marks : s.documents.updates = swap.marks active
  added : s.documents.inserts = swap.added r
  fresh : ∀ n ∈ s.documents.inserts, ∀ d ∈ docs, d.id ≠ n.id

/-- The identifier is that of a version of the key. -/
def OfKey (docs : List Document) (key : String) (id : Uuid) : Prop :=
  ∃ d ∈ docs, d.id = id ∧ d.docKey = key

/-- Nothing is inserted or updated yet. -/
structure Session.Quiet (s : Session) : Prop where
  inserts : s.documents.inserts = []
  updates : s.documents.updates = []

/-- A removal that has marked the version it read. -/
structure Marked (docs : List Document) (s : Session) (key : String) (read : Document) :
    Prop where
  inserts : s.documents.inserts = []
  updates : s.documents.updates = [(read.id, .deleted)]
  ofKey : OfKey docs key read.id

/-- What a session knows of the documents where it stands. -/
def Session.Fits (docs : List Document) (s : Session) : Prop :=
  match s.task with
  | .ingest r (.selecting found) =>
      s.Quiet ∧ ∀ d ∈ docs.filter (activeOf r.docKey), d.id ∈ found
  | .ingest r (.swapping active swap) => Swapping docs s r active swap
  | .ingest _ _ => s.Quiet
  | .deactivate key (.marking read) => s.Quiet ∧ OfKey docs key read.id
  | .deactivate key (.clearing read _) | .deactivate key (.committing read) =>
      Marked docs s key read
  | .deactivate _ _ => s.Quiet

/-- Two sessions hold different advisory locks and different rows, and add different ones. -/
structure Session.Apart (hashtext : String → Int) (a b : Session) : Prop where
  advisory : ∀ k, a.advisory hashtext = some k → b.advisory hashtext ≠ some k
  rows : ∀ id, a.documents.holds id = true → b.documents.holds id = false
  added : ∀ n ∈ a.documents.inserts, ∀ m ∈ b.documents.inserts, n.id ≠ m.id

theorem Session.Apart.symm {hashtext : String → Int} {a b : Session}
    (apart : Session.Apart hashtext a b) : Session.Apart hashtext b a where
  advisory k held other := apart.advisory k other held
  rows id held := by
    cases other : a.documents.holds id with
    | false => rfl
    | true =>
        rw [apart.rows id other] at held
        cases held
  added n mine m theirs same := apart.added m theirs n mine same.symm

/-- Sessions apart serialize different keys. -/
theorem Session.Apart.keys {hashtext : String → Int} {a b : Session} {k l : String}
    (apart : Session.Apart hashtext a b) (first : a.serialized = some k)
    (second : b.serialized = some l) : k ≠ l := by
  rintro rfl
  have held : a.advisory hashtext = some (hashtext k) := by rw [Session.advisory, first]; rfl
  apply apart.advisory _ held
  rw [Session.advisory, second]
  rfl

/-! ## What a step does -/

/-- How a transaction ends: the task it leaves, and what it saw. -/
inductive Session.Ends (s : Session) (w : World) : Task → Prop where
  | kept (r : Ingestion) (active : Document) : s.task = .ingest r .checking →
      active ∈ w.active r.docKey → r.unchanged active = true →
      s.Ends w (.ingest r (.returned (Session.unchangedResult active)))
  | checked (r : Ingestion) : s.task = .ingest r .checking → s.Ends w (.ingest r .preparing)
  | same (r : Ingestion) (found : List Uuid) (active : Document) :
      s.task = .ingest r (.selecting found) →
      active ∈ documentsTable.selected s.documents w.documents found (activeOf r.docKey) →
      r.unchanged active = true → s.Ends w (.ingest r (.returned (Session.unchangedResult active)))
  | swapped (r : Ingestion) (active : Option Document) (v : Nat) (id : Uuid) :
      s.task = .ingest r (.swapping active (.committing v id)) →
      s.Ends w (.ingest r (.returned ⟨r.docKey, v, .indexed, r.chunks.length⟩))
  | missing (key : String) : s.task = .deactivate key .reading →
      s.Ends w (.deactivate key (.returned false))
  | removed (key : String) (read : Document) : s.task = .deactivate key (.committing read) →
      s.Ends w (.deactivate key (.returned true))

/-- One step of the UPDATEs that withdraw a key's chunks. -/
inductive Session.Clears (s : Session) (w : World) (key : String) :
    Clearing → Session → Option Clearing → Prop where
  | started (table : ChunkTable) : s.Clears w key (.next table) s
      (some (.waiting table (chunksTable.targets (s.chunks table) (w.chunks table) (currentOf key))))
  | ended (table : ChunkTable) (found : List ChunkId) : s.Clears w key (.waiting table found)
      { s with chunks := fun t => if t = table then
          chunksTable.update (s.chunks table) (w.chunks table) found (currentOf key) false
        else s.chunks t } (Clearing.after table)

/-- How a transaction goes on. -/
inductive Session.Goes (hashtext : String → Int) (s : Session) (w : World)
    (others : List Session) : Session → Prop where
  | locked (r : Ingestion) : s.task = .ingest r .preparing →
      (∀ o ∈ others, o.advisory hashtext ≠ some (hashtext r.docKey)) →
      s.Goes hashtext w others { s with task := .ingest r .locked }
  | selecting (r : Ingestion) : s.task = .ingest r .locked →
      s.Goes hashtext w others { s with task := .ingest r (.selecting
        (documentsTable.targets s.documents w.documents (activeOf r.docKey))) }
  | selected (r : Ingestion) (found : List Uuid) (active : Option Document) :
      s.task = .ingest r (.selecting found) →
      Table.free (others.map Session.documents) found = true →
      (documentsTable.selected s.documents w.documents found (activeOf r.docKey)).head? = active →
      s.Goes hashtext w others { s with
        documents := documentsTable.lock s.documents w.documents found (activeOf r.docKey)
        task := .ingest r (.swapping active .numbering) }
  | numbered (r : Ingestion) (active : Option Document) :
      s.task = .ingest r (.swapping active .numbering) →
      s.Goes hashtext w others { s with
        task := .ingest r (.swapping active (.superseding (s.latest w r.docKey + 1))) }
  | first (r : Ingestion) (v : Nat) : s.task = .ingest r (.swapping none (.superseding v)) →
      s.Goes hashtext w others { s with
        task := .ingest r (.swapping none (.clearing v (.next .chunks))) }
  | superseded (r : Ingestion) (v : Nat) (active : Document) (s' : Session) :
      s.task = .ingest r (.swapping (some active) (.superseding v)) →
      s.mark w others active.id .superseded = some s' →
      s.Goes hashtext w others { s' with
        task := .ingest r (.swapping (some active) (.clearing v (.next .chunks))) }
  | cleared (r : Ingestion) (active : Option Document) (v : Nat) (point : Clearing)
      (s' : Session) (more : Option Clearing) :
      s.task = .ingest r (.swapping active (.clearing v point)) →
      s.Clears w r.docKey point s' more →
      s.Goes hashtext w others { s' with
        task := .ingest r (.swapping active (.onward v more)) }
  | added (r : Ingestion) (active : Option Document) (v : Nat) (uuid : Uuid) :
      s.task = .ingest r (.swapping active (.adding v)) →
      (∀ d ∈ s.indexed w others, d.id ≠ uuid) →
      s.Goes hashtext w others { s with
        documents := { s.documents with
          inserts := r.document uuid v :: s.documents.inserts }
        task := .ingest r (.swapping active (.filling v uuid)) }
  | filled (r : Ingestion) (active : Option Document) (v : Nat) (id : Uuid) :
      s.task = .ingest r (.swapping active (.filling v id)) →
      s.Goes hashtext w others { s with
        chunks := fun t => if t = r.table then
            { s.chunks r.table with inserts := r.chunkRows id v ++ (s.chunks r.table).inserts }
          else s.chunks t
        task := .ingest r (.swapping active (.committing v id)) }
  | read (key : String) (d : Document) : s.task = .deactivate key .reading → d ∈ w.active key →
      s.Goes hashtext w others { s with task := .deactivate key (.marking d) }
  | marked (key : String) (d : Document) (s' : Session) :
      s.task = .deactivate key (.marking d) → s.mark w others d.id .deleted = some s' →
      s.Goes hashtext w others { s' with task := .deactivate key (.clearing d (.next .chunks)) }
  | withdrawn (key : String) (d : Document) (point : Clearing) (s' : Session)
      (more : Option Clearing) : s.task = .deactivate key (.clearing d point) →
      s.Clears w key point s' more →
      s.Goes hashtext w others { s' with task := .deactivate key (.onward d more) }

/-- What one step makes of a session. -/
def Turn.From (hashtext : String → Int) (s : Session) (w : World) (others : List Session) :
    Turn → Prop
  | .stay s' => s.Goes hashtext w others s'
  | .commit task => s.Ends w task

variable {hashtext : String → Int} {w : World} {s s' : Session} {others : List Session}
  {uuid : Uuid} {turn : Turn}

theorem mem_active {key : String} {d : Document} :
    d ∈ w.active key ↔ d ∈ w.documents ∧ activeOf key d = true := List.mem_filter

theorem activeOf_iff {key : String} {d : Document} :
    activeOf key d = true ↔ d.docKey = key ∧ d.status = .active := by
  unfold activeOf
  rw [Bool.and_eq_true, beq_iff_eq, beq_iff_eq]

theorem found_active {key : String} {d : Document}
    (found : w.documents.find? (activeOf key) = some d) : d ∈ w.active key :=
  mem_active.mpr ⟨List.mem_of_find?_eq_some found, List.find?_some found⟩

theorem clear_clears {key : String} {point : Clearing} {more : Option Clearing}
    (taken : s.clear w others key point = some (s', more)) : s.Clears w key point s' more := by
  cases point with
  | next table =>
      cases taken
      exact .started table
  | waiting table found =>
      simp only [Session.clear] at taken
      split at taken
      · cases taken
        exact .ended table found
      · cases taken

theorem addDocument_some {new : Document} (taken : s.addDocument w others new = some s') :
    (∀ d ∈ s.indexed w others, d.id ≠ new.id) ∧
      s' = { s with documents := { s.documents with inserts := new :: s.documents.inserts } } := by
  unfold Session.addDocument at taken
  split at taken
  · cases taken
  · rename_i clear
    refine ⟨fun d mem same => clear ?_, (Option.some.inj taken).symm⟩
    apply List.any_eq_true.mpr ⟨d, mem, ?_⟩
    rw [Session.clashes, same, beq_self_eq_true, Bool.true_or]

theorem addChunks_some {table : ChunkTable} {rows : List Chunk}
    (taken : s.addChunks w others table rows = some s') :
    s' = { s with chunks := fun t => if t = table then
        { s.chunks table with inserts := rows ++ (s.chunks table).inserts } else s.chunks t } := by
  unfold Session.addChunks at taken
  dsimp only at taken
  split at taken
  · exact (Option.some.inj taken).symm
  · cases taken

theorem swap_from {r : Ingestion} {active : Option Document} {swap : Swap}
    (at_ : s.task = .ingest r (.swapping active swap))
    (taken : s.swap w others r uuid active swap = some turn) : turn.From hashtext s w others := by
  cases swap with
  | numbering =>
      cases taken
      exact .numbered r active at_
  | superseding v =>
      cases active with
      | none =>
          cases taken
          exact .first r v at_
      | some d =>
          obtain ⟨s', marked, rfl⟩ := Option.map_eq_some_iff.mp taken
          exact .superseded r v d s' at_ marked
  | clearing v point =>
      obtain ⟨⟨s', more⟩, cleared, rfl⟩ := Option.map_eq_some_iff.mp taken
      exact .cleared r active v point s' more at_ (clear_clears cleared)
  | adding v =>
      obtain ⟨s', added, rfl⟩ := Option.map_eq_some_iff.mp taken
      obtain ⟨fresh, rfl⟩ := addDocument_some added
      exact .added r active v uuid at_ fresh
  | filling v id =>
      obtain ⟨s', filled, rfl⟩ := Option.map_eq_some_iff.mp taken
      rw [addChunks_some filled]
      exact .filled r active v id at_
  | committing v id =>
      cases taken
      exact .swapped r active v id at_

theorem ingestFile_from {r : Ingestion} {point : IngestPoint} (at_ : s.task = .ingest r point)
    (taken : s.ingestFile w others hashtext r uuid point = some turn) :
    turn.From hashtext s w others := by
  cases point with
  | checking =>
      simp only [Session.ingestFile] at taken
      split at taken
      · rename_i active found
        split at taken
        · rename_i unchanged
          cases taken
          exact .kept r active at_ (found_active found) unchanged
        · cases taken
          exact .checked r at_
      · cases taken
        exact .checked r at_
  | preparing =>
      simp only [Session.ingestFile] at taken
      split at taken
      · rename_i free
        cases taken
        exact .locked r at_ fun o mem same =>
          absurd same (bne_iff_ne.mp (List.all_eq_true.mp free o mem))
      · cases taken
  | locked =>
      cases taken
      exact .selecting r at_
  | selecting found =>
      simp only [Session.ingestFile] at taken
      split at taken
      · rename_i free
        split at taken
        · rename_i active first
          split at taken
          · rename_i unchanged
            cases taken
            exact .same r found active at_ (List.mem_of_head? first) unchanged
          · cases taken
            exact .selected r found (some active) at_ free first
        · rename_i first
          cases taken
          have shape : s.Goes hashtext w others _ :=
            Session.Goes.selected r found none at_ free first
          rw [Table.lock, List.head?_eq_none_iff.mp first] at shape
          exact shape
      · cases taken
  | swapping active swap => exact swap_from at_ taken
  | returned result => cases taken
  | aborted => cases taken

theorem deactivate_from {key : String} {point : DeactivatePoint}
    (at_ : s.task = .deactivate key point)
    (taken : s.deactivate w others key point = some turn) : turn.From hashtext s w others := by
  cases point with
  | reading =>
      simp only [Session.deactivate] at taken
      split at taken
      · rename_i active found
        cases taken
        exact .read key active at_ (found_active found)
      · cases taken
        exact .missing key at_
  | marking read =>
      obtain ⟨s', marked, rfl⟩ := Option.map_eq_some_iff.mp taken
      exact .marked key read s' at_ marked
  | clearing read point =>
      obtain ⟨⟨s', more⟩, cleared, rfl⟩ := Option.map_eq_some_iff.mp taken
      exact .withdrawn key read point s' more at_ (clear_clears cleared)
  | committing read =>
      cases taken
      exact .removed key read at_
  | returned found => cases taken
  | aborted => cases taken

/-- **Every step is one of these.** -/
theorem turn_from (taken : s.turn w others hashtext uuid = some turn) :
    turn.From hashtext s w others := by
  unfold Session.turn at taken
  split at taken
  · rename_i r point at_
    exact ingestFile_from at_ taken
  · rename_i key point at_
    exact deactivate_from at_ taken

/-! ## What a step keeps -/

theorem mark_some {id : Uuid} {status : DocumentStatus}
    (taken : s.mark w others id status = some s') :
    (∀ o ∈ others, o.documents.holds id = false) ∧
      s' = { s with
        documents := documentsTable.update s.documents w.documents [id] (fun d => d.id == id)
          status } := by
  unfold Session.mark at taken
  split at taken
  · rename_i free
    have unheld := Table.free_iff.mp free id List.mem_cons_self
    exact ⟨fun o mem => unheld _ (List.mem_map_of_mem mem), (Option.some.inj taken).symm⟩
  · cases taken

/-- The row an UPDATE by identifier sets, in a transaction that has done nothing else. -/
theorem mark_updates {key : String} {id : Uuid} {status : DocumentStatus} (quiet : s.Quiet)
    (ids : (w.documents.map Document.id).Nodup) (there : OfKey w.documents key id)
    (taken : s.mark w others id status = some s') :
    s'.documents.inserts = [] ∧ s'.documents.updates = [(id, status)] := by
  obtain ⟨-, rfl⟩ := mark_some taken
  obtain ⟨d, mem, rfl, -⟩ := there
  constructor
  · show s.documents.inserts.map _ = []
    rw [quiet.inserts, List.map_nil]
  · exact documentsTable.updates_single quiet.updates ids mem

theorem le_foldl_max {n : Nat} {l : List Nat} {m : Nat} (le : n ≤ m ∨ n ∈ l) :
    n ≤ l.foldl max m := by
  induction l generalizing m with
  | nil =>
      rcases le with le | mem
      · exact le
      · cases mem
  | cons x l ih =>
      apply ih
      rcases le with le | mem
      · exact .inl (Nat.le_trans le (Nat.le_max_left m x))
      · cases mem with
        | head => exact .inl (Nat.le_max_right m n)
        | tail _ mem => exact .inr mem

theorem version_le_latest {key : String} (quiet : s.Quiet) {d : Document} (mem : d ∈ w.documents)
    (same : d.docKey = key) : d.version ≤ s.latest w key := by
  apply le_foldl_max
  apply Or.inr
  rw [documentsTable.view_quiet quiet.inserts quiet.updates]
  exact List.mem_map_of_mem (List.mem_filter.mpr ⟨mem, beq_iff_eq.mpr same⟩)

/-- What the locked SELECT gives is the active version, found or not when it started. -/
theorem selected_active {key : String} {found : List Uuid} (quiet : s.Quiet)
    (covers : ∀ d ∈ w.active key, d.id ∈ found) :
    documentsTable.selected s.documents w.documents found (activeOf key) = w.active key := by
  unfold Table.selected
  rw [documentsTable.view_quiet quiet.inserts quiet.updates]
  apply List.filter_congr
  intro d mem
  by_cases active : activeOf key d = true
  · have there : found.contains d.id = true :=
      List.contains_iff_mem.mpr (covers d (mem_active.mpr ⟨mem, active⟩))
    show (found.contains d.id && activeOf key d) = activeOf key d
    rw [there, Bool.true_and]
  · rw [Bool.not_eq_true] at active
    rw [active, Bool.and_false]

theorem toList_head? {α : Type} {l : List α} (short : l.length ≤ 1) : l.head?.toList = l := by
  cases l with
  | nil => rfl
  | cons a l =>
      cases l with
      | nil => rfl
      | cons b l =>
          simp only [List.length_cons] at short
          omega

theorem clears_documents {key : String} {point : Clearing} {more : Option Clearing}
    (cleared : s.Clears w key point s' more) : s'.documents = s.documents := by
  cases cleared <;> rfl

/-- What the documents are in every reachable state, and what the sessions know of them. -/
structure Sound (hashtext : String → Int) (w : World) : Prop where
  ids : (w.documents.map Document.id).Nodup
  sole : ∀ key, (w.active key).length ≤ 1
  ordered : w.documents.Pairwise fun d e => d.docKey = e.docKey → e.version < d.version
  fits : ∀ s ∈ w.sessions, s.Fits w.documents
  apart : Theory.Apart (Session.Apart hashtext) w.sessions

/-- **A session that goes on knows what it must where it stands.** -/
theorem goes_fits (sound : Sound hashtext w) (fits : s.Fits w.documents)
    (went : s.Goes hashtext w others s') : s'.Fits w.documents := by
  cases went with
  | locked r at_ free =>
      simp only [Session.Fits, at_] at fits
      exact ⟨fits.inserts, fits.updates⟩
  | selecting r at_ =>
      simp only [Session.Fits, at_] at fits
      refine ⟨⟨fits.inserts, fits.updates⟩, fun d mem => ?_⟩
      unfold Table.targets
      rw [documentsTable.view_quiet fits.inserts fits.updates]
      exact List.mem_map_of_mem mem
  | selected r found active at_ free first =>
      simp only [Session.Fits, at_] at fits
      obtain ⟨quiet, covers⟩ := fits
      have rows := selected_active quiet covers
      rw [rows] at first
      have sole : w.active r.docKey = active.toList := by
        rw [← first, toList_head? (sound.sole r.docKey)]
      refine ⟨sole, ?_, ?_, quiet.updates, quiet.inserts, ?_⟩
      · intro d mem
        have there : d ∈ w.active r.docKey := by
          rw [sole]
          exact Option.mem_toList.mpr mem
        show (documentsTable.lock s.documents w.documents found _).holds d.id = true
        unfold Table.lock Pending.holds
        rw [rows]
        have locked : ((w.active r.docKey).map documentsTable.key ++ s.documents.locked).contains
            d.id = true :=
          List.contains_iff_mem.mpr (List.mem_append_left _ (List.mem_map_of_mem there))
        rw [locked, Bool.true_or]
      · intro v none
        cases none
      · show ∀ n ∈ s.documents.inserts, _
        rw [quiet.inserts]
        intro n mem
        cases mem
  | numbered r active at_ =>
      simp only [Session.Fits, at_] at fits
      refine ⟨fits.sole, fits.held, ?_, fits.marks, fits.added, fits.fresh⟩
      intro v is d mem same
      cases is
      have le := version_le_latest (s := s) ⟨fits.added, fits.marks⟩ mem same
      omega
  | first r v at_ =>
      simp only [Session.Fits, at_] at fits
      exact ⟨fits.sole, fits.held, fits.newer, fits.marks, fits.added, fits.fresh⟩
  | superseded r v active s₁ at_ marked =>
      simp only [Session.Fits, at_] at fits
      have there : active ∈ w.active r.docKey := by
        show active ∈ w.documents.filter (activeOf r.docKey)
        rw [fits.sole]
        exact List.mem_cons_self
      obtain ⟨mem, isActive⟩ := mem_active.mp there
      have ofKey : OfKey w.documents r.docKey active.id :=
        ⟨active, mem, rfl, (activeOf_iff.mp isActive).1⟩
      have updates := mark_updates ⟨fits.added, fits.marks⟩ sound.ids ofKey marked
      obtain ⟨-, rfl⟩ := mark_some marked
      refine ⟨fits.sole, ?_, fits.newer, updates.2, updates.1, ?_⟩
      · intro d is
        cases is
        show Pending.holds _ active.id = true
        unfold Pending.holds
        rw [updates.2, List.any_cons, beq_self_eq_true, Bool.true_or, Bool.or_true]
      · intro n here
        have none := updates.1 ▸ here
        cases none
  | cleared r active v point s₁ more at_ cleared =>
      simp only [Session.Fits, at_] at fits
      have same := clears_documents cleared
      have held : ∀ d ∈ active, s₁.documents.holds d.id = true := by
        rw [same]
        exact fits.held
      have fresh : ∀ n ∈ s₁.documents.inserts, ∀ d ∈ w.documents, d.id ≠ n.id := by
        rw [same]
        exact fits.fresh
      cases more with
      | none => exact ⟨fits.sole, held, fits.newer, same ▸ fits.marks, same ▸ fits.added, fresh⟩
      | some point =>
          exact ⟨fits.sole, held, fits.newer, same ▸ fits.marks, same ▸ fits.added, fresh⟩
  | added r active v uuid at_ fresh =>
      simp only [Session.Fits, at_] at fits
      have added : r.document uuid v :: s.documents.inserts = [r.document uuid v] := by
        rw [fits.added]
        rfl
      refine ⟨fits.sole, fits.held, fits.newer, fits.marks, added, ?_⟩
      show ∀ n ∈ r.document uuid v :: s.documents.inserts, _
      rw [added]
      intro n mem d there same
      cases List.mem_singleton.mp mem
      have visible : documentsTable.amend s.documents.updates d ∈ s.indexed w others :=
        List.mem_append_left _ (documentsTable.mem_view.mpr (.inr ⟨d, there, rfl⟩))
      exact fresh _ visible ((documentsTable.key_amend s.documents.updates d).trans same)
  | filled r active v id at_ =>
      simp only [Session.Fits, at_] at fits
      exact ⟨fits.sole, fits.held, fits.newer, fits.marks, fits.added, fits.fresh⟩
  | read key d at_ mem =>
      simp only [Session.Fits, at_] at fits
      obtain ⟨there, isActive⟩ := mem_active.mp mem
      exact ⟨⟨fits.inserts, fits.updates⟩, d, there, rfl, (activeOf_iff.mp isActive).1⟩
  | marked key d s₁ at_ marked =>
      simp only [Session.Fits, at_] at fits
      obtain ⟨quiet, ofKey⟩ := fits
      have updates := mark_updates quiet sound.ids ofKey marked
      exact ⟨updates.1, updates.2, ofKey⟩
  | withdrawn key d point s₁ more at_ cleared =>
      simp only [Session.Fits, at_] at fits
      have same := clears_documents cleared
      cases more with
      | none => exact ⟨same ▸ fits.inserts, same ▸ fits.updates, fits.ofKey⟩
      | some point => exact ⟨same ▸ fits.inserts, same ▸ fits.updates, fits.ofKey⟩

/-- A session that has locked no further row and added none is apart as before. -/
theorem Session.Apart.onward {o : Session} (apart : Session.Apart hashtext s o)
    (serialized : s'.serialized = s.serialized) (documents : s'.documents = s.documents) :
    Session.Apart hashtext s' o where
  advisory k held := by
    unfold Session.advisory at held
    rw [serialized] at held
    exact apart.advisory k held
  rows id held := by
    rw [documents] at held
    exact apart.rows id held
  added n mem := by
    rw [documents] at mem
    exact apart.added n mem

/-- So is one that has locked a row nobody held. -/
theorem Session.Apart.marked {o : Session} {id : Uuid} {status : DocumentStatus} {task : Task}
    (apart : Session.Apart hashtext s o) (mem : o ∈ others) (quiet : s.Quiet)
    (taken : s.mark w others id status = some s')
    (serialized : { s' with task }.serialized = s.serialized) :
    Session.Apart hashtext { s' with task } o where
  advisory k held := by
    unfold Session.advisory at held
    rw [serialized] at held
    exact apart.advisory k held
  rows row held := by
    obtain ⟨free, rfl⟩ := mark_some taken
    rcases Table.holds_update _ held with old | new
    · exact apart.rows row old
    · rw [List.mem_singleton.mp new]
      exact free o mem
  added n here := by
    obtain ⟨-, rfl⟩ := mark_some taken
    have none : n ∈ s.documents.inserts.map _ := here
    rw [quiet.inserts] at none
    cases none

/-- **A session that goes on stays apart from the others.** -/
theorem goes_apart (fits : s.Fits w.documents) (went : s.Goes hashtext w others s')
    (apart : ∀ o ∈ others, Session.Apart hashtext s o) :
    ∀ o ∈ others, Session.Apart hashtext s' o := by
  intro o mem
  have before := apart o mem
  cases went with
  | locked r at_ free =>
      refine ⟨?_, before.rows, before.added⟩
      intro k held other
      cases held
      exact free o mem other
  | selecting r at_ =>
      exact before.onward (by simp only [Session.serialized, at_]) rfl
  | selected r found active at_ free first =>
      simp only [Session.Fits, at_] at fits
      refine ⟨?_, ?_, before.added⟩
      · intro k held
        apply before.advisory k
        rw [← held]
        simp only [Session.advisory, Session.serialized, at_]
      · intro id held
        rcases Table.holds_lock _ held with old | new
        · exact before.rows id old
        · exact Table.free_iff.mp free id new o.documents (List.mem_map_of_mem mem)
  | numbered r active at_ =>
      exact before.onward (by simp only [Session.serialized, at_]) rfl
  | first r v at_ =>
      exact before.onward (by simp only [Session.serialized, at_]) rfl
  | superseded r v active s₁ at_ marked =>
      simp only [Session.Fits, at_] at fits
      exact before.marked mem ⟨fits.added, fits.marks⟩ marked
        (by simp only [Session.serialized, at_])
  | cleared r active v point s₁ more at_ cleared =>
      have same := clears_documents cleared
      exact before.onward (by simp only [Session.serialized, at_]) same
  | added r active v uuid at_ fresh =>
      simp only [Session.Fits, at_] at fits
      refine ⟨?_, before.rows, ?_⟩
      · intro k held
        apply before.advisory k
        rw [← held]
        simp only [Session.advisory, Session.serialized, at_]
      · intro n here m theirs same
        rw [show r.document uuid v :: s.documents.inserts = [r.document uuid v] by
          rw [fits.added]; rfl] at here
        cases List.mem_singleton.mp here
        apply fresh m ?_ same.symm
        exact List.mem_append_right _ (List.mem_flatMap.mpr ⟨o, mem, theirs⟩)
  | filled r active v id at_ =>
      exact before.onward (by simp only [Session.serialized, at_]) rfl
  | read key d at_ there =>
      exact before.onward (by simp only [Session.serialized, at_]) rfl
  | marked key d s₁ at_ marked =>
      simp only [Session.Fits, at_] at fits
      exact before.marked mem fits.1 marked (by simp only [Session.serialized, at_])
  | withdrawn key d point s₁ more at_ cleared =>
      have same := clears_documents cleared
      exact before.onward (by simp only [Session.serialized, at_]) same

/-! ## What a commit makes of the documents -/

/-- The documents once a session has committed. -/
def committedBy (s : Session) (docs : List Document) : List Document :=
  documentsTable.view s.documents docs

/-- An update ends a version; it makes none active. -/
theorem Session.Fits.off {docs : List Document} (fits : s.Fits docs) :
    ∀ u ∈ s.documents.updates, u.2 ≠ .active := by
  intro u mem
  have quiet : s.Quiet → u.2 ≠ .active := fun quiet => by
    rw [quiet.updates] at mem
    cases mem
  have marked : ∀ {key read}, Marked docs s key read → u.2 ≠ .active := by
    intro key read fits
    rw [fits.updates] at mem
    cases List.mem_singleton.mp mem
    exact fun same => nomatch same
  unfold Session.Fits at fits
  split at fits
  · exact quiet fits.1
  · obtain ⟨d, -, rfl⟩ := Swap.marks_mem (fits.marks ▸ mem)
    exact fun same => nomatch same
  · exact quiet fits
  · exact quiet fits.1
  · exact marked fits
  · exact marked fits
  · exact quiet fits

/-- A row that is added is of the key its session serializes, and new. -/
theorem Session.Fits.inserted {docs : List Document} (fits : s.Fits docs) {n : Document}
    (mem : n ∈ s.documents.inserts) :
    s.serialized = some n.docKey ∧ ∀ d ∈ docs, d.id ≠ n.id := by
  have quiet : s.documents.inserts = [] → s.serialized = some n.docKey ∧ ∀ d ∈ docs, d.id ≠ n.id :=
    fun none => by
      rw [none] at mem
      cases mem
  unfold Session.Fits at fits
  split at fits
  · exact quiet fits.1.inserts
  · rename_i r active swap at_
    obtain ⟨v, id, rfl⟩ := Swap.added_mem (fits.added ▸ mem)
    refine ⟨?_, fits.fresh _ mem⟩
    simp only [Session.serialized, at_]
    rfl
  · exact quiet fits.inserts
  · exact quiet fits.1.inserts
  · exact quiet fits.inserts
  · exact quiet fits.inserts
  · exact quiet fits.inserts

theorem amend_docKey (updates : List (Uuid × DocumentStatus)) (d : Document) :
    (documentsTable.amend updates d).docKey = d.docKey :=
  documentsTable.amend_keeps Document.docKey (fun _ _ => rfl) updates d

theorem amend_version (updates : List (Uuid × DocumentStatus)) (d : Document) :
    (documentsTable.amend updates d).version = d.version :=
  documentsTable.amend_keeps Document.version (fun _ _ => rfl) updates d

theorem OfKey.committed {docs : List Document} {key : String} {id : Uuid}
    (there : OfKey docs key id) (s : Session) : OfKey (committedBy s docs) key id := by
  obtain ⟨d, mem, rfl, same⟩ := there
  exact ⟨documentsTable.amend s.documents.updates d,
    documentsTable.mem_view.mpr (.inr ⟨d, mem, rfl⟩), documentsTable.key_amend _ d,
    (amend_docKey _ d).trans same⟩

/-- A commit withdraws active versions; it adds one for the key it serializes only. -/
theorem committedBy_active {docs : List Document} (fits : s.Fits docs) (key : String) :
    (committedBy s docs).filter (activeOf key) =
      s.documents.inserts.filter (activeOf key) ++ (docs.filter (activeOf key)).filter
        fun d => !s.documents.updates.any fun u => u.1 == d.id := by
  apply documentsTable.filter_view
  intro u mem d
  show (d.docKey == key && u.2 == .active) = false
  rw [beq_eq_false_iff_ne.mpr (fits.off u mem), Bool.and_false]

/-- The session has added a version of the key. -/
def Session.Adds (s : Session) (key : String) : Prop := ∃ n ∈ s.documents.inserts, n.docKey = key

theorem Session.Fits.not_adds {docs : List Document} (fits : s.Fits docs) {key : String}
    (other : s.serialized ≠ some key) : ¬s.Adds key := by
  rintro ⟨n, mem, rfl⟩
  exact other (fits.inserted mem).1

theorem committedBy_other {docs : List Document} (fits : s.Fits docs) {key : String}
    (other : ¬s.Adds key) :
    (committedBy s docs).filter (activeOf key) = (docs.filter (activeOf key)).filter
      fun d => !s.documents.updates.any fun u => u.1 == d.id := by
  have none : s.documents.inserts.filter (activeOf key) = [] := by
    apply List.filter_eq_nil_iff.mpr
    intro n mem active
    exact other ⟨n, mem, (activeOf_iff.mp active).1⟩
  rw [committedBy_active fits, none, List.nil_append]

/-- The versions of a key the session adds none to are those from before. -/
theorem committedBy_versions {docs : List Document} {key : String} (other : ¬s.Adds key) {d : Document} (mem : d ∈ committedBy s docs)
    (same : d.docKey = key) : ∃ e ∈ docs, e.docKey = key ∧ e.version = d.version := by
  rcases documentsTable.mem_view.mp mem with new | ⟨e, there, rfl⟩
  · exact absurd ⟨d, new, same⟩ other
  · exact ⟨e, there, (amend_docKey _ e).symm.trans same, (amend_version _ e).symm⟩

/-- **What another session knows is still so after the commit.** -/
theorem Session.Fits.committed {docs : List Document} {o : Session} (known : o.Fits docs)
    (fits : s.Fits docs) (apart : Session.Apart hashtext o s) : o.Fits (committedBy s docs) := by
  have other : ∀ {key}, o.serialized = some key → ¬s.Adds key :=
    fun mine => fits.not_adds fun theirs => apart.keys mine theirs rfl
  unfold Session.Fits at known ⊢
  split at known
  · rename_i r found at_
    refine ⟨known.1, fun d mem => ?_⟩
    rw [committedBy_other fits (other (by simp only [Session.serialized, at_]))] at mem
    exact known.2 d (List.mem_filter.mp mem).1
  · rename_i r active swap at_
    have mine : o.serialized = some r.docKey := by simp only [Session.serialized, at_]
    refine ⟨?_, known.held, ?_, known.marks, known.added, ?_⟩
    · rw [committedBy_other fits (other mine), known.sole]
      apply List.filter_eq_self.mpr
      intro d mem
      have mineHeld := known.held d (Option.mem_toList.mp mem)
      have free := apart.rows d.id mineHeld
      unfold Pending.holds at free
      rw [(Bool.or_eq_false_iff.mp free).2]
      rfl
    · intro v is d mem same
      obtain ⟨e, there, key, version⟩ := committedBy_versions (other mine) mem same
      rw [← version]
      exact known.newer v is e there key
    · intro n mem d there same
      rcases documentsTable.mem_view.mp there with new | ⟨e, before, rfl⟩
      · exact apart.added n mem d new same.symm
      · exact known.fresh n mem e before ((documentsTable.key_amend _ e).symm.trans same)
  · exact known
  · exact ⟨known.1, known.2.committed s⟩
  · exact ⟨known.inserts, known.updates, known.ofKey.committed s⟩
  · exact ⟨known.inserts, known.updates, known.ofKey.committed s⟩
  · exact known

/-! ## The documents in every run -/

/-- A session that ends a swap publishes its version. -/
structure Publishes (docs : List Document) (s : Session) (r : Ingestion) (v : Nat) (id : Uuid) :
    Prop where
  active : (committedBy s docs).filter (activeOf r.docKey) = [r.document id v]
  added : s.documents.inserts = [r.document id v]
  newer : ∀ d ∈ docs, d.docKey = r.docKey → d.version < v

theorem Swapping.publishes {docs : List Document} {r : Ingestion} {active : Option Document}
    {v : Nat} {id : Uuid} (at_ : s.task = .ingest r (.swapping active (.committing v id)))
    (known : Swapping docs s r active (.committing v id)) : Publishes docs s r v id := by
  have fits : s.Fits docs := by
    unfold Session.Fits
    rw [at_]
    exact known
  refine ⟨?_, known.added, known.newer v rfl⟩
  have own : activeOf r.docKey (r.document id v) = true :=
    activeOf_iff.mpr ⟨rfl, rfl⟩
  rw [committedBy_active fits, known.added, known.sole, known.marks]
  cases active with
  | none =>
      show [r.document id v].filter (activeOf r.docKey) ++ [] = _
      rw [List.filter_cons_of_pos own]
      rfl
  | some d =>
      show [r.document id v].filter (activeOf r.docKey) ++ [d].filter
        (fun e => !([(d.id, DocumentStatus.superseded)]).any fun u => u.1 == e.id) = _
      rw [List.filter_cons_of_pos own, List.filter_cons_of_neg]
      · rfl
      · rw [List.any_cons, beq_self_eq_true]
        exact Bool.false_ne_true

/-- What a transaction that ends has inserted: nothing, or the version it publishes. -/
theorem Session.Ends.inserts {task : Task} (ends : s.Ends w task) (fits : s.Fits w.documents) :
    s.documents.inserts = [] ∨ ∃ r v id, Publishes w.documents s r v id := by
  cases ends with
  | swapped r active v id at_ =>
      simp only [Session.Fits, at_] at fits
      exact .inr ⟨r, v, id, Swapping.publishes at_ fits⟩
  | kept r active at_ | checked r at_ | missing key at_ =>
      simp only [Session.Fits, at_] at fits
      exact .inl fits.inserts
  | same r found active at_ | removed key read at_ =>
      simp only [Session.Fits, at_] at fits
      first | exact .inl fits.1.inserts | exact .inl fits.inserts

/-- The session a transaction leaves knows nothing. -/
theorem Session.Ends.fits {task : Task} (ends : s.Ends w task) (docs : List Document) :
    Session.Fits docs { task } := by
  cases ends <;> exact ⟨rfl, rfl⟩

/-- **A commit keeps the documents sound.** -/
theorem committed_documents {task : Task} (ends : s.Ends w task) (fits : s.Fits w.documents)
    (ids : (w.documents.map Document.id).Nodup) (sole : ∀ key, (w.active key).length ≤ 1)
    (ordered : w.documents.Pairwise fun d e => d.docKey = e.docKey → e.version < d.version) :
    ((committedBy s w.documents).map Document.id).Nodup ∧
      (∀ key, ((committedBy s w.documents).filter (activeOf key)).length ≤ 1) ∧
      (committedBy s w.documents).Pairwise fun d e => d.docKey = e.docKey → e.version < d.version := by
  have amended : (w.documents.map (documentsTable.amend s.documents.updates)).Pairwise
      fun d e => d.docKey = e.docKey → e.version < d.version := by
    rw [List.pairwise_map]
    refine ordered.imp fun newer same => ?_
    rw [amend_docKey, amend_docKey] at same
    rw [amend_version, amend_version]
    exact newer same
  have keys := documentsTable.keys_view s.documents w.documents
  have short : ∀ key, s.documents.inserts.filter (activeOf key) = [] →
      ((committedBy s w.documents).filter (activeOf key)).length ≤ 1 := by
    intro key none
    rw [committedBy_active fits, none, List.nil_append]
    exact Nat.le_trans (List.length_filter_le _ _) (sole key)
  rcases ends.inserts fits with none | ⟨r, v, id, publishes⟩
  · rw [none, List.map_nil, List.nil_append] at keys
    refine ⟨?_, fun key => short key (by rw [none]; rfl), ?_⟩
    · show ((committedBy s w.documents).map documentsTable.key).Nodup
      rw [committedBy, keys]
      exact ids
    · unfold committedBy Table.view
      rw [none, List.nil_append]
      exact amended
  · have added := publishes.added
    have there : r.document id v ∈ s.documents.inserts := by
      rw [added]
      exact List.mem_cons_self
    rw [added] at keys
    refine ⟨?_, fun key => ?_, ?_⟩
    · show ((committedBy s w.documents).map documentsTable.key).Nodup
      rw [committedBy, keys]
      apply List.nodup_cons.mpr ⟨?_, ids⟩
      intro mem
      obtain ⟨d, here, same⟩ := List.mem_map.mp mem
      exact (fits.inserted there).2 d here same
    · by_cases own : key = r.docKey
      · rw [own, publishes.active]
        exact Nat.le_refl 1
      · apply short
        rw [added]
        apply List.filter_cons_of_neg
        intro active
        exact own (activeOf_iff.mp active).1.symm
    · unfold committedBy Table.view
      rw [added]
      apply List.pairwise_cons.mpr ⟨?_, amended⟩
      intro d mem same
      obtain ⟨e, here, rfl⟩ := List.mem_map.mp mem
      rw [amend_version]
      exact publishes.newer e here ((amend_docKey _ e).symm.trans same.symm)

/-- A task that has no transaction open, or one that has done nothing. -/
def Task.idle : Task → Bool
  | .ingest _ .checking | .ingest _ .preparing | .ingest _ (.returned _) | .ingest _ .aborted => true
  | .deactivate _ .reading | .deactivate _ (.returned _) | .deactivate _ .aborted => true
  | _ => false

theorem Task.idle_fits {task : Task} (idle : task.idle = true) (docs : List Document) :
    Session.Fits docs { task } := by
  unfold Session.Fits
  unfold Task.idle at idle
  split at idle
  all_goals first | exact ⟨rfl, rfl⟩ | cases idle

theorem Task.idle_apart {task : Task} (idle : task.idle = true) (o : Session) :
    Session.Apart hashtext { task } o := by
  have none : Session.serialized { task } = none := by
    unfold Session.serialized
    unfold Task.idle at idle
    split at idle
    all_goals first | rfl | cases idle
  refine ⟨?_, ?_, ?_⟩
  · intro k held
    rw [Session.advisory, none] at held
    cases held
  · intro id held
    cases held
  · intro n mem
    cases mem

/-- What one step does to the world. -/
inductive World.Steps (hashtext : String → Int) (w : World) : Act → World → Prop where
  | ingesting (r : Ingestion) : w.Steps hashtext (.ingest r)
      { w with sessions := w.sessions ++ [{ task := .ingest r .checking }] }
  | deactivating (key : String) : w.Steps hashtext (.deactivate key)
      { w with sessions := w.sessions ++ [{ task := .deactivate key .reading }] }
  | went (i : Nat) (uuid : Uuid) (s s' : Session) : w.sessions[i]? = some s →
      s.Goes hashtext w (w.sessions.eraseIdx i) s' →
      w.Steps hashtext (.advance i uuid) { w with sessions := w.sessions.set i s' }
  | ended (i : Nat) (uuid : Uuid) (s : Session) (task : Task) : w.sessions[i]? = some s →
      s.Ends w task → task.idle = true →
      w.Steps hashtext (.advance i uuid) (w.take i s (.commit task))
  | aborted (i : Nat) (s : Session) (task : Task) : w.sessions[i]? = some s → task.idle = true →
      w.Steps hashtext (.abort i) { w with sessions := w.sessions.set i { task } }

theorem Session.Ends.idle {task : Task} (ends : s.Ends w task) : task.idle = true := by
  cases ends <;> rfl

theorem abort_some (taken : s.abort = some s') : ∃ task, task.idle = true ∧ s' = { task } := by
  unfold Session.abort at taken
  split at taken
  · cases taken
  · cases taken
  · cases taken
  · cases taken
  · exact ⟨_, rfl, (Option.some.inj taken).symm⟩
  · exact ⟨_, rfl, (Option.some.inj taken).symm⟩

theorem step_steps {act : Act} {w' : World} (step : w.step hashtext act = some w') :
    w.Steps hashtext act w' := by
  cases act with
  | ingest r =>
      cases step
      exact .ingesting r
  | deactivate key =>
      cases step
      exact .deactivating key
  | advance i uuid =>
      obtain ⟨s, there, rest⟩ := Option.bind_eq_some_iff.mp step
      obtain ⟨turn, taken, same⟩ := Option.bind_eq_some_iff.mp rest
      cases same
      have from_ := turn_from taken
      cases turn with
      | stay s' => exact .went i uuid s s' there from_
      | commit task =>
          have ends : s.Ends w task := from_
          exact .ended i uuid s task there ends ends.idle
  | abort i =>
      obtain ⟨s, there, rest⟩ := Option.bind_eq_some_iff.mp step
      obtain ⟨s', taken, same⟩ := Option.bind_eq_some_iff.mp rest
      cases same
      obtain ⟨task, idle, rfl⟩ := abort_some taken
      exact .aborted i s task there idle

/-- **One step keeps the documents sound.** -/
theorem steps_sound {act : Act} {w' : World} (steps : w.Steps hashtext act w')
    (sound : Sound hashtext w) : Sound hashtext w' := by
  cases steps with
  | ingesting _ | deactivating _ =>
      refine ⟨sound.ids, sound.sole, sound.ordered, ?_, ?_⟩
      · intro s mem
        rcases List.mem_append.mp mem with old | new
        · exact sound.fits s old
        · rw [List.mem_singleton.mp new]
          exact Task.idle_fits rfl w.documents
      · exact sound.apart.push Session.Apart.symm fun o _ => Task.idle_apart rfl o
  | went i uuid s s' there went =>
      have fits := sound.fits s (List.mem_of_getElem? there)
      have apart := sound.apart.others there
      have next := goes_fits sound fits went
      refine ⟨sound.ids, sound.sole, sound.ordered, ?_, ?_⟩
      · intro o mem
        rcases mem_set mem with rfl | other
        · exact next
        · exact sound.fits o (List.mem_of_mem_eraseIdx other)
      · exact sound.apart.set Session.Apart.symm (goes_apart fits went apart)
  | ended i uuid s task there ends idle =>
      have fits := sound.fits s (List.mem_of_getElem? there)
      have apart := sound.apart.others there
      obtain ⟨ids, sole, ordered⟩ :=
        committed_documents ends fits sound.ids sound.sole sound.ordered
      refine ⟨ids, sole, ordered, ?_, ?_⟩
      · intro o mem
        rcases mem_set mem with rfl | other
        · exact Task.idle_fits idle _
        · exact (sound.fits o (List.mem_of_mem_eraseIdx other)).committed fits
            (apart o other).symm
      · exact sound.apart.set Session.Apart.symm fun o _ => Task.idle_apart idle o
  | aborted i s task there idle =>
      refine ⟨sound.ids, sound.sole, sound.ordered, ?_, ?_⟩
      · intro o mem
        rcases mem_set mem with rfl | other
        · exact Task.idle_fits idle w.documents
        · exact sound.fits o (List.mem_of_mem_eraseIdx other)
      · exact sound.apart.set Session.Apart.symm fun o _ => Task.idle_apart idle o

theorem empty_sound : Sound hashtext {} where
  ids := List.nodup_nil
  sole _ := Nat.zero_le 1
  ordered := List.Pairwise.nil
  fits _ mem := nomatch mem
  apart _ _ _ _ _ there := nomatch there

/-- **In every run a key has one active version at most, and its versions grow.** -/
theorem documents_sound {acts : List Act} (run : Run (TryStepOf (World.step hashtext)) {} acts w) :
    Sound hashtext w :=
  run.invariant (fun _ _ _ step sound => steps_sound (step_steps step) sound) empty_sound

end OpsAssist.Ingest
