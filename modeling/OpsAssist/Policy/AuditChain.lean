/-
# OpsAssist.Policy.AuditChain -- the log over interleaved transactions

`LogState` is the log as several transactions append to it: the committed rows, the
rows of the one transaction that holds the advisory lock, and the identity's next
value.  Each row is kept with the entry its writer held (`Written`), which the
database does not store.  An append waits while another transaction holds the lock,
and one the database refuses rolls its transaction back.

The invariant is `Chained`: the rows, committed and pending, are linked from the
genesis, each written from its entry, in the order of their ids and with pairwise
different hashes.  Verification, editing, deletion and reordering are then facts
about a linked list.
-/
import OpsAssist.Policy.AuditRecord
import OpsAssist.Theory.Run

namespace OpsAssist

set_option autoImplicit false

open Theory

variable {host : Host}

/-! ## Transactions on the log -/

/-- A row with the entry it was written from. -/
structure Written where
  entry : AuditEntry
  row : AuditLog

def rowsOf (log : List Written) : List AuditLog := log.map Written.row

structure LogState where
  committed : List Written
  /-- the transaction that holds the lock, with its own rows -/
  holder : Option (Nat × List Written)
  nextId : Nat

def LogState.initial : LogState := { committed := [], holder := none, nextId := 1 }

inductive LogStep where
  | append (tx : Nat) (entry : AuditEntry) (createdAt : Datetime)
  | commit (tx : Nat)
  | rollback (tx : Nat)

/-- An append inside a transaction that has the lock and its own rows so far. -/
def LogState.write (host : Host) (s : LogState) (tx : Nat) (own : List Written)
    (entry : AuditEntry) (createdAt : Datetime) : LogState :=
  match Audit.append host createdAt s.nextId entry (rowsOf (s.committed ++ own)) with
  | some row => { s with holder := some (tx, own ++ [⟨entry, row⟩]), nextId := s.nextId + 1 }
  | none => { s with holder := none, nextId := s.nextId + 1 }

def LogState.step (host : Host) (s : LogState) : LogStep → LogState
  | .append tx entry createdAt =>
      match s.holder with
      | none => s.write host tx [] entry createdAt
      | some (holder, own) =>
          -- another transaction's lock is waited for
          if holder = tx then s.write host tx own entry createdAt else s
  | .commit tx =>
      match s.holder with
      | none => s
      | some (holder, own) =>
          if holder = tx then { s with committed := s.committed ++ own, holder := none } else s
  | .rollback tx =>
      match s.holder with
      | none => s
      | some (holder, _) => if holder = tx then { s with holder := none } else s

/-- The log after a sequence of steps of any transactions. -/
def LogState.run (host : Host) (steps : List LogStep) : LogState :=
  steps.foldl (LogState.step host) .initial

/-! ## The invariant -/

/-- The chain over rows with their ids. -/
def logChain (host : Host) : HashChain AuditLog String :=
  (recordChain host).comap AuditLog.toAuditRecord

/-- A log as appends leave it. -/
structure Chained (host : Host) (log : List Written) (nextId : Nat) : Prop where
  linked : (logChain host).Linked GENESIS (rowsOf log)
  written : ∀ w ∈ log, WrittenAs host w.entry w.row.toAuditRecord
  ordered : (rowsOf log).Pairwise fun a b => a.id < b.id
  fresh : ∀ row ∈ rowsOf log, row.id < nextId
  distinct : ((rowsOf log).map fun row => row.hash).Nodup

theorem rowsOf_append (front back : List Written) :
    rowsOf (front ++ back) = rowsOf front ++ rowsOf back := List.map_append

theorem orderById_of_ordered {rows : List AuditLog}
    (ordered : rows.Pairwise fun a b => a.id < b.id) : orderById rows = rows :=
  List.Pairwise.insertionSort_eq (ordered.imp Nat.le_of_lt)

/-- In a chained log the next record links to the end of the chain. -/
theorem lastHash_of_ordered {rows : List AuditLog}
    (ordered : rows.Pairwise fun a b => a.id < b.id) :
    lastHash rows = (logChain host).endHash GENESIS rows := by
  rw [lastHash, orderById_of_ordered ordered, HashChain.endHash_getLast?]
  cases rows.getLast? <;> rfl

namespace Chained

theorem nil (host : Host) (nextId : Nat) : Chained host [] nextId where
  linked := trivial
  written := by simp
  ordered := .nil
  fresh := by simp [rowsOf]
  distinct := .nil

theorem mono {log : List Written} {m n : Nat} (chained : Chained host log m) (le : m ≤ n) :
    Chained host log n :=
  { chained with fresh := fun row mem => Nat.lt_of_lt_of_le (chained.fresh row mem) le }

/-- Dropping the rows of a transaction that rolls back leaves a chained log. -/
theorem front {front back : List Written} {nextId : Nat}
    (chained : Chained host (front ++ back) nextId) : Chained host front nextId where
  linked := (HashChain.linked_append.mp (rowsOf_append front back ▸ chained.linked)).1
  written w mem := chained.written w (List.mem_append_left _ mem)
  ordered := (List.pairwise_append.mp (rowsOf_append front back ▸ chained.ordered)).1
  fresh row mem := chained.fresh row (by rw [rowsOf_append]; exact List.mem_append_left _ mem)
  distinct := by
    have all := chained.distinct
    rw [rowsOf_append, List.map_append] at all
    exact (List.nodup_append.mp all).1

/-- **Appending to a chained log keeps it chained.** -/
theorem append {log : List Written} {nextId : Nat} (chained : Chained host log nextId)
    {entry : AuditEntry} {createdAt : Datetime} {row : AuditLog}
    (done : Audit.append host createdAt nextId entry (rowsOf log) = some row) :
    Chained host (log ++ [⟨entry, row⟩]) (nextId + 1) := by
  obtain ⟨written, id, -, prev, fits⟩ := append_spec done
  have others : ∀ other ∈ rowsOf log, other.hash ≠ row.hash := by
    intro other mem
    simp only [insertable, Bool.and_eq_true, List.all_eq_true, bne_iff_ne] at fits
    exact (fits.2 other mem).2
  refine ⟨?_, ?_, ?_, ?_, ?_⟩
  · rw [rowsOf_append, HashChain.linked_append]
    refine ⟨chained.linked, ?_, trivial⟩
    rw [← lastHash_of_ordered chained.ordered]
    exact prev
  · intro w mem
    rcases List.mem_append.mp mem with old | new
    · exact chained.written w old
    · rw [List.mem_singleton.mp new]
      exact written
  · rw [rowsOf_append, List.pairwise_append]
    refine ⟨chained.ordered, List.pairwise_singleton _ _, ?_⟩
    intro a old b new
    rw [List.mem_singleton.mp new]
    exact id ▸ chained.fresh a old
  · intro other mem
    rw [rowsOf_append, List.mem_append] at mem
    rcases mem with old | new
    · exact Nat.lt_succ_of_lt (chained.fresh other old)
    · rw [List.mem_singleton.mp new]
      exact id ▸ Nat.lt_succ_self nextId
  · rw [rowsOf_append, List.map_append, List.nodup_append]
    refine ⟨chained.distinct, List.nodup_singleton _, ?_⟩
    intro a old b new same
    obtain ⟨other, mem, rfl⟩ := List.mem_map.mp old
    obtain rfl : b = row.hash := by simpa [rowsOf] using new
    exact others other mem same

end Chained

/-- The rows a transaction on the log sees are chained. -/
def LogState.Inv (host : Host) (s : LogState) : Prop :=
  match s.holder with
  | none => Chained host s.committed s.nextId
  | some (_, own) => Chained host (s.committed ++ own) s.nextId

theorem LogState.Inv.committed {s : LogState} (inv : s.Inv host) :
    Chained host s.committed s.nextId := by
  unfold LogState.Inv at inv
  split at inv
  · exact inv
  · exact inv.front

theorem LogState.write_inv {s : LogState} {tx : Nat} {own : List Written} {entry : AuditEntry}
    {createdAt : Datetime} (chained : Chained host (s.committed ++ own) s.nextId) :
    (s.write host tx own entry createdAt).Inv host := by
  unfold LogState.write
  split
  · rename_i row done
    simp only [LogState.Inv]
    rw [← List.append_assoc]
    exact chained.append done
  · exact chained.front.mono (Nat.le_succ _)

/-- One step keeps the log chained. -/
theorem LogState.step_inv {s : LogState} (label : LogStep) (inv : s.Inv host) :
    (s.step host label).Inv host := by
  cases holds : s.holder with
  | none =>
      cases label with
      | append tx entry createdAt =>
          simp only [LogState.step, holds]
          refine LogState.write_inv ?_
          simpa using inv.committed
      | commit tx => simpa only [LogState.step, holds] using inv
      | rollback tx => simpa only [LogState.step, holds] using inv
  | some holding =>
      obtain ⟨holder, own⟩ := holding
      have chained : Chained host (s.committed ++ own) s.nextId := by
        simpa only [LogState.Inv, holds] using inv
      cases label with
      | append tx entry createdAt =>
          simp only [LogState.step, holds]
          split
          · exact LogState.write_inv chained
          · exact inv
      | commit tx =>
          simp only [LogState.step, holds]
          split
          · exact chained
          · exact inv
      | rollback tx =>
          simp only [LogState.step, holds]
          split
          · exact chained.front
          · exact inv

/-- **The committed log of every run is chained.** -/
theorem LogState.run_chained (host : Host) (steps : List LogStep) :
    Chained host (LogState.run host steps).committed (LogState.run host steps).nextId := by
  have run : Run (StepOf (LogState.step host)) .initial steps (LogState.run host steps) :=
    Run.stepOf_iff.mpr rfl
  have inv : (LogState.run host steps).Inv host := by
    refine run.invariant ?_ (Chained.nil host 1)
    intro s label s' here holds
    rw [← here]
    exact LogState.step_inv label holds
  exact inv.committed

/-! ## What verification answers -/

def faultText : HashChain.Fault → String
  | .link => "previous hash does not match"
  | .content => "record content does not match its hash"

/-- The loop reports the chain's first fault. -/
theorem verifyFrom_eq (count : Nat) : ∀ (prev : String) (rows : List AuditLog),
    verifyFrom host count prev rows =
      match (logChain host).firstFault prev rows with
      | none => { records := count, intact := true }
      | some (row, fault) =>
          { records := count, intact := false, brokenAt := some row.id,
            detail := some (faultText fault) }
  | _, [] => rfl
  | prev, row :: rest => by
      rw [verifyFrom, HashChain.firstFault]
      by_cases named : row.prevHash = prev
      · by_cases content : row.hash = recordHash host prev row.entry row.createdAt.isoformat
        · rw [if_neg (by simpa using named), if_neg (by simpa using content), verifyFrom_eq count,
            if_neg (by simpa [logChain, recordChain, HashChain.comap] using named),
            if_neg (by simpa [logChain, recordChain, HashChain.comap] using content)]
          rfl
        · rw [if_neg (by simpa using named), if_pos (by simpa using content),
            if_neg (by simpa [logChain, recordChain, HashChain.comap] using named),
            if_pos (by simpa [logChain, recordChain, HashChain.comap] using content)]
          rfl
      · rw [if_pos (by simpa using named),
          if_pos (by simpa [logChain, recordChain, HashChain.comap] using named)]
        rfl

theorem verifyChain_intact_iff {rows : List AuditLog}
    (ordered : rows.Pairwise fun a b => a.id < b.id) :
    (verifyChain host rows).intact = true ↔
      (logChain host).Linked GENESIS rows ∧ ∀ row ∈ rows, (logChain host).Sound row := by
  rw [← HashChain.firstFault_eq_none_iff]
  simp only [verifyChain, orderById_of_ordered ordered, verifyFrom_eq]
  cases found : (logChain host).firstFault GENESIS rows with
  | none => simp
  | some pair => simp

theorem verifyChain_brokenAt {rows : List AuditLog} {row : AuditLog} {fault : HashChain.Fault}
    (ordered : rows.Pairwise fun a b => a.id < b.id)
    (found : (logChain host).firstFault GENESIS rows = some (row, fault)) :
    verifyChain host rows =
      { records := rows.length, intact := false, brokenAt := some row.id,
        detail := some (faultText fault) } := by
  simp only [verifyChain, orderById_of_ordered ordered, verifyFrom_eq, found]

/-! ## An untouched log -/

namespace Chained

variable {log : List Written} {nextId : Nat}

theorem sound_of_survives (chained : Chained host log nextId) {w : Written} (mem : w ∈ log)
    (survives : w.entry.Survives host) : (logChain host).Sound w.row :=
  written_sound (chained.written w mem) survives

theorem sound_iff (free : CollisionFree host) (chained : Chained host log nextId) {w : Written}
    (mem : w ∈ log) : (logChain host).Sound w.row ↔ w.entry.Survives host :=
  written_sound_iff free (chained.written w mem)

end Chained

/-- **The log of any interleaving of transactions verifies when every committed entry
survives the store; with a collision-free digest it verifies only then.** -/
theorem untouched_log_verifies (host : Host) (steps : List LogStep) :
    ((∀ w ∈ (LogState.run host steps).committed, w.entry.Survives host) →
      (verifyChain host (rowsOf (LogState.run host steps).committed)).intact = true) ∧
    (CollisionFree host →
      (verifyChain host (rowsOf (LogState.run host steps).committed)).intact = true →
      ∀ w ∈ (LogState.run host steps).committed, w.entry.Survives host) := by
  have chained := LogState.run_chained host steps
  rw [verifyChain_intact_iff chained.ordered]
  constructor
  · intro survive
    refine ⟨chained.linked, ?_⟩
    intro row mem
    obtain ⟨w, there, rfl⟩ := List.mem_map.mp mem
    exact chained.sound_of_survives there (survive w there)
  · rintro free ⟨-, sound⟩ w mem
    exact (chained.sound_iff free mem).mp (sound w.row (List.mem_map_of_mem mem))

/-! ## An edited row -/

/-- The row reads as the entry: the same columns, and arguments and result that differ
only in what redaction hides. -/
structure ReadsAs (host : Host) (row : AuditRecord) (createdAt : Datetime) (entry : AuditEntry) :
    Prop where
  createdAt : row.createdAt = createdAt
  requestId : row.requestId = entry.requestId
  actorId : row.actorId = entry.actorId
  actorRole : row.actorRole = entry.actorRole
  event : row.event = entry.event
  tool : row.tool = entry.tool
  arguments : Alike host (readColumn row.arguments) entry.arguments.canon
  decision : row.decision = entry.decision
  reason : row.reason = entry.reason
  result : Alike host (readColumn row.result) entry.result.canon
  pendingActionId : row.pendingActionId = entry.pendingActionId
  actionHash : row.actionHash = entry.actionHash

theorem canon_readColumn (column : Option Jsonb) :
    (readColumn column).canon = readColumn column := by
  cases column with
  | none => simp only [readColumn, Json.canon]
  | some stored => exact stored.canon_read

theorem alike_readColumn_iff {column : Option Jsonb} {v : Value} :
    Alike host (readColumn column) v.canon ↔ seen host v = seen host (readColumn column) := by
  rw [alike_iff, seen, seen, canon_redact, canon_redact, canon_readColumn]
  exact eq_comm

theorem readsAs_iff {row : AuditRecord} {createdAt : Datetime} {entry : AuditEntry} :
    ReadsAs host row createdAt entry ↔
      createdAt = row.createdAt ∧ SameRecord host entry row.entry := by
  constructor
  · intro reads
    exact ⟨reads.createdAt.symm,
      { requestId := reads.requestId.symm
        actorId := reads.actorId.symm
        actorRole := reads.actorRole.symm
        event := reads.event.symm
        tool := reads.tool.symm
        arguments := alike_readColumn_iff.mp reads.arguments
        decision := reads.decision.symm
        reason := reads.reason.symm
        result := alike_readColumn_iff.mp reads.result
        pendingActionId := reads.pendingActionId.symm
        actionHash := reads.actionHash.symm }⟩
  · rintro ⟨created, same⟩
    exact {
      createdAt := created.symm
      requestId := same.requestId.symm
      actorId := same.actorId.symm
      actorRole := same.actorRole.symm
      event := same.event.symm
      tool := same.tool.symm
      arguments := alike_readColumn_iff.mpr same.arguments
      decision := same.decision.symm
      reason := same.reason.symm
      result := alike_readColumn_iff.mpr same.result
      pendingActionId := same.pendingActionId.symm
      actionHash := same.actionHash.symm }

/-- An edited row that keeps its hashes is sound exactly when it reads as the entry it
was written from. -/
theorem edited_sound_iff (free : CollisionFree host) {w : Written} {edited : AuditLog}
    (written : WrittenAs host w.entry w.row.toAuditRecord)
    (prevHash : edited.prevHash = w.row.prevHash) (hash : edited.hash = w.row.hash) :
    (logChain host).Sound edited ↔
      ReadsAs host edited.toAuditRecord w.row.createdAt w.entry := by
  have same : (logChain host).Sound edited ↔
      edited.hash = recordHash host edited.prevHash edited.entry edited.createdAt.isoformat :=
    Iff.rfl
  rw [same, hash, prevHash, written.hash, recordHash_eq_iff free, readsAs_iff]

/-- Replacing a row by one with its id and hashes leaves the log linked and ordered. -/
theorem Chained.edited {front back : List Written} {w : Written} {nextId : Nat}
    (chained : Chained host (front ++ w :: back) nextId) {edited : AuditLog}
    (id : edited.id = w.row.id) (prevHash : edited.prevHash = w.row.prevHash)
    (hash : edited.hash = w.row.hash) :
    (logChain host).Linked GENESIS (rowsOf front ++ edited :: rowsOf back) ∧
      (rowsOf front ++ edited :: rowsOf back).Pairwise fun a b => a.id < b.id := by
  have shape : rowsOf (front ++ w :: back) = rowsOf front ++ w.row :: rowsOf back := by
    simp [rowsOf]
  have linked := chained.linked
  have ordered := chained.ordered
  rw [shape] at linked ordered
  constructor
  · rw [HashChain.linked_append] at linked ⊢
    obtain ⟨before, named, after⟩ := linked
    refine ⟨before, ?_, ?_⟩
    · simpa [logChain, recordChain, HashChain.comap, prevHash] using named
    · simpa [logChain, recordChain, HashChain.comap, hash] using after
  · rw [List.pairwise_append, List.pairwise_cons] at ordered ⊢
    obtain ⟨before, ⟨first, after⟩, across⟩ := ordered
    refine ⟨before, ⟨fun b mem => id ▸ first b mem, after⟩, ?_⟩
    intro a mem b there
    rcases List.mem_cons.mp there with rfl | later
    · exact id ▸ across a mem w.row (by simp)
    · exact across a mem b (List.mem_cons_of_mem _ later)

/-- In a list ordered by id, a row is found at one place only. -/
theorem split_of_id {front back before after : List AuditLog} {a b : AuditLog}
    (ordered : (front ++ a :: back).Pairwise fun x y => x.id < y.id)
    (shape : front ++ a :: back = before ++ b :: after) (same : b.id = a.id) :
    before = front ∧ b = a ∧ after = back := by
  induction front generalizing before with
  | nil =>
      cases before with
      | nil =>
          simp only [List.nil_append, List.cons.injEq] at shape
          exact ⟨rfl, shape.1.symm, shape.2.symm⟩
      | cons x before =>
          simp only [List.nil_append, List.cons_append, List.cons.injEq] at shape
          obtain ⟨rfl, rest⟩ := shape
          have later := (List.pairwise_cons.mp ordered).1 b (by rw [rest]; simp)
          omega
  | cons x front ih =>
      cases before with
      | nil =>
          simp only [List.nil_append, List.cons_append, List.cons.injEq] at shape
          obtain ⟨rfl, rest⟩ := shape
          have later := (List.pairwise_cons.mp ordered).1 a (by simp)
          omega
      | cons y before =>
          simp only [List.cons_append, List.cons.injEq] at shape
          obtain ⟨rfl, rest⟩ := shape
          obtain ⟨rfl, rfl, rfl⟩ := ih (List.pairwise_cons.mp ordered).2 rest
          exact ⟨rfl, rfl, rfl⟩

/-- **An edit of a row is reported at that row exactly when every earlier entry survives
the store and the edited row no longer reads as its entry.** -/
theorem edited_row_detected_iff (free : CollisionFree host) {steps : List LogStep}
    {front back : List Written} {w : Written}
    (log : (LogState.run host steps).committed = front ++ w :: back) {edited : AuditLog}
    (id : edited.id = w.row.id) (prevHash : edited.prevHash = w.row.prevHash)
    (hash : edited.hash = w.row.hash) :
    ((verifyChain host (rowsOf front ++ edited :: rowsOf back)).intact = false ∧
        (verifyChain host (rowsOf front ++ edited :: rowsOf back)).brokenAt = some w.row.id) ↔
      (∀ v ∈ front, v.entry.Survives host) ∧
        ¬ReadsAs host edited.toAuditRecord w.row.createdAt w.entry := by
  have chained : Chained host (front ++ w :: back) _ := log ▸ LogState.run_chained host steps
  obtain ⟨linked, ordered⟩ := chained.edited id prevHash hash
  have editedSound := edited_sound_iff free (chained.written w (by simp)) prevHash hash
  have frontSound : ∀ v ∈ front, ((logChain host).Sound v.row ↔ v.entry.Survives host) :=
    fun v mem => chained.sound_iff free (List.mem_append_left _ mem)
  constructor
  · rintro ⟨broken, here⟩
    cases found : (logChain host).firstFault GENESIS (rowsOf front ++ edited :: rowsOf back) with
    | none =>
        have intact := (verifyChain_intact_iff ordered).mpr
          (HashChain.firstFault_eq_none_iff.mp found)
        rw [intact] at broken
        cases broken
    | some pair =>
        obtain ⟨row, fault⟩ := pair
        rw [verifyChain_brokenAt ordered found] at here
        have sameId : row.id = edited.id := (Option.some.inj here).trans id.symm
        obtain ⟨before, after, shape, sound, unsound⟩ := HashChain.firstFault_eq_some linked found
        -- ids are pairwise different, so the reported row is the edited one
        have splits := split_of_id ordered shape sameId
        obtain ⟨rfl, rfl, rfl⟩ := splits
        refine ⟨?_, fun reads => unsound (editedSound.mpr reads)⟩
        intro v mem
        exact (frontSound v mem).mp (sound v.row (List.mem_map_of_mem mem))
  · rintro ⟨survive, differs⟩
    have found := HashChain.firstFault_of_linked linked
      (fun row mem => by
        obtain ⟨v, there, rfl⟩ := List.mem_map.mp mem
        exact (frontSound v there).mpr (survive v there))
      (fun sound => differs (editedSound.mp sound))
    rw [verifyChain_brokenAt ordered found]
    exact ⟨rfl, congrArg some id⟩

/-! ## Deleted and reordered rows -/

/-- No text hashes to the genesis. -/
def GenesisFree (host : Host) : Prop := ∀ s, host.sha256 s ≠ GENESIS

/-- The chain over rows with their entries. -/
def writtenChain (host : Host) : HashChain Written String := (logChain host).comap Written.row

theorem Chained.genesis_fresh {log : List Written} {nextId : Nat} (genesis : GenesisFree host)
    (chained : Chained host log nextId) :
    (GENESIS :: (rowsOf log).map fun row => row.hash).Nodup := by
  rw [List.nodup_cons]
  refine ⟨?_, chained.distinct⟩
  intro mem
  obtain ⟨row, there, same⟩ := List.mem_map.mp mem
  obtain ⟨w, inside, rfl⟩ := List.mem_map.mp there
  rw [(chained.written w inside).hash] at same
  exact genesis _ same

/-- Rows of the log that are still linked are a beginning of it. -/
theorem Chained.kept_prefix {log kept : List Written} {nextId : Nat} (genesis : GenesisFree host)
    (chained : Chained host log nextId) (sub : kept.Sublist log) :
    (logChain host).Linked GENESIS (rowsOf kept) ↔ kept <+: log := by
  have whole : (writtenChain host).Linked GENESIS log := HashChain.linked_comap.mpr chained.linked
  have distinct : (GENESIS :: log.map (writtenChain host).hash).Nodup := by
    have fresh := chained.genesis_fresh genesis
    rwa [rowsOf, List.map_map] at fresh
  constructor
  · intro linked
    exact HashChain.linked_prefix whole distinct (HashChain.linked_comap.mpr linked)
      fun _ mem => sub.subset mem
  · intro beginning
    exact HashChain.linked_comap.mp (HashChain.linked_of_prefix whole beginning)

/-- **Deleting rows goes unnoticed exactly when they are the log's end and what is kept
survives the store; a reordering of the rows' contents never does.** -/
theorem removed_rows_detected_iff (free : CollisionFree host) (genesis : GenesisFree host)
    (steps : List LogStep) :
    (∀ kept : List Written, kept.Sublist (LogState.run host steps).committed →
      ((verifyChain host (rowsOf kept)).intact ≠ true ↔
        ¬kept <+: (LogState.run host steps).committed ∨ ∃ w ∈ kept, ¬w.entry.Survives host)) ∧
    (∀ rows : List AuditLog,
      rows.map AuditLog.id = (rowsOf (LogState.run host steps).committed).map AuditLog.id →
      (rows.map AuditLog.toAuditRecord).Perm
        ((rowsOf (LogState.run host steps).committed).map AuditLog.toAuditRecord) →
      rows.map AuditLog.toAuditRecord ≠
        (rowsOf (LogState.run host steps).committed).map AuditLog.toAuditRecord →
      (verifyChain host rows).intact ≠ true) := by
  have chained := LogState.run_chained host steps
  constructor
  · intro kept sub
    have ordered : (rowsOf kept).Pairwise fun a b => a.id < b.id :=
      chained.ordered.sublist (sub.map Written.row)
    rw [ne_eq, verifyChain_intact_iff ordered, chained.kept_prefix genesis sub, not_and_or]
    refine or_congr_right ?_
    constructor
    · intro unsound
      by_contra all
      push Not at all
      refine unsound fun row mem => ?_
      obtain ⟨w, there, rfl⟩ := List.mem_map.mp mem
      exact chained.sound_of_survives (sub.subset there) (all w there)
    · rintro ⟨w, mem, lost⟩ sound
      exact lost ((chained.sound_iff free (sub.subset mem)).mp
        (sound w.row (List.mem_map_of_mem mem)))
  · intro rows ids perm moved intact
    have ordered : rows.Pairwise fun a b => a.id < b.id := by
      have sorted := chained.ordered
      rw [← List.pairwise_map (f := AuditLog.id) (R := fun m n => m < n)] at sorted ⊢
      rwa [ids]
    have linked := ((verifyChain_intact_iff ordered).mp intact).1
    have distinct := chained.genesis_fresh genesis
    have beginning := HashChain.linked_prefix (C := recordChain host)
      (HashChain.linked_comap.mp chained.linked) (by rwa [List.map_map])
      (HashChain.linked_comap.mp linked) (fun r mem => perm.subset mem)
    exact moved (beginning.eq_of_length perm.length_eq)

/-! ## Poles

One entry with a value under a secret key, appended twice by one transaction. -/

def poleStamp : Datetime := .ofInstant 1790000000000000 0

def poleEntry : AuditEntry where
  requestId := "r-1"
  actorId := "U001"
  actorRole := "employee"
  event := "tool_call"
  decision := .executed
  arguments := .obj [("token", .str "x")]

def poleSteps : List LogStep :=
  [.append 1 poleEntry poleStamp, .append 1 poleEntry poleStamp, .commit 1]

/-- Arguments that were never recorded. -/
def forgedArguments : Jsonb := ⟨.obj [("token", .str "y")], trivial, by simp, trivial⟩

theorem plain_genesisFree : GenesisFree .plain := by
  intro s same
  have texts : (Host.plain.sha256 s).toList = (String.ofList (List.replicate 64 '0')).toList :=
    congrArg String.toList same
  rw [String.toList_ofList, plain_sha256_toList] at texts
  have mem : 'h' ∈ List.replicate 64 '0' := by rw [← texts]; exact List.mem_cons_self
  exact absurd (List.eq_of_mem_replicate mem) (by decide)

/-- The rows the transaction leaves. -/
theorem pole_rows : (LogState.run .plain poleSteps).committed.map
    (fun w => (w.row.id, w.entry.actorId)) = [(1, "U001"), (2, "U001")] := by
  decide +kernel

theorem pole_split : ∃ a b, (LogState.run .plain poleSteps).committed = [a, b] ∧
    a.row.id = 1 ∧ b.row.id = 2 ∧ a.entry.actorId = "U001" := by
  have rows := pole_rows
  obtain ⟨a, b, shape⟩ := List.length_eq_two.mp (by simpa using congrArg List.length rows)
  rw [shape] at rows
  simp only [List.map_cons, List.map_nil, List.cons.injEq, Prod.mk.injEq, and_true] at rows
  exact ⟨a, b, shape, rows.1.1, rows.2.1, rows.1.2⟩

/-- A forged value under a secret key goes unnoticed. -/
theorem forged_secret_unnoticed :
    ((LogState.run .plain [.append 1 poleEntry poleStamp, .commit 1]).committed.map fun w =>
      ((verifyChain .plain [{ w.row with arguments := some forgedArguments }]).intact,
        (readColumn w.row.arguments).dumps, (readColumn (some forgedArguments)).dumps)) =
      [(true, "\x7b\"token\":\"[REDACTED]\"\x7d", "\x7b\"token\":\"y\"\x7d")] := by
  decide +kernel

/-- The last row can be deleted unnoticed. -/
theorem deleted_tail_unnoticed :
    ((LogState.run .plain poleSteps).committed.length,
      (verifyChain .plain (rowsOf ((LogState.run .plain poleSteps).committed.take 1))).intact) =
      (2, true) := by
  decide +kernel

theorem untouched_log_verifies_pole :
    (verifyChain .plain (rowsOf (LogState.run .plain poleSteps).committed)).intact = true := by
  refine (untouched_log_verifies .plain poleSteps).1 ?_
  decide +kernel

/-- The row as if another user had acted. -/
def impersonated (row : AuditLog) : AuditLog := { row with actorId := "U002" }

theorem edited_row_detected_pole : ∃ a b, (LogState.run .plain poleSteps).committed = [a, b] ∧
    (verifyChain .plain [impersonated a.row, b.row]).brokenAt = some 1 := by
  obtain ⟨a, b, shape, first, -, actor⟩ := pole_split
  refine ⟨a, b, shape, ?_⟩
  have log : (LogState.run .plain poleSteps).committed = [] ++ a :: [b] := shape
  have differs : ¬ReadsAs .plain (impersonated a.row).toAuditRecord a.row.createdAt a.entry := by
    intro reads
    have same : "U002" = a.entry.actorId := reads.actorId
    rw [actor] at same
    exact absurd same (by decide)
  have id : (impersonated a.row).id = a.row.id := rfl
  have prevHash : (impersonated a.row).prevHash = a.row.prevHash := rfl
  have hash : (impersonated a.row).hash = a.row.hash := rfl
  have detected :=
    (edited_row_detected_iff plain_collisionFree log id prevHash hash).mpr ⟨by simp, differs⟩
  rw [first] at detected
  exact detected.2

theorem removed_rows_detected_pole :
    (verifyChain .plain
      (rowsOf ((LogState.run .plain poleSteps).committed.drop 1))).intact ≠ true := by
  refine ((removed_rows_detected_iff plain_collisionFree plain_genesisFree poleSteps).1 _
    (List.drop_sublist 1 _)).mpr (.inl ?_)
  obtain ⟨a, b, shape, first, second, -⟩ := pole_split
  rw [shape]
  intro beginning
  have same : b = a := (List.cons_prefix_cons.mp beginning).1
  rw [same, first] at second
  exact absurd second (by decide)

end OpsAssist
