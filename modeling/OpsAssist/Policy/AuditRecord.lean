/-
# OpsAssist.Policy.AuditRecord -- what the hash of a record pins

Two facts about one row carry every property of the log.

* Equal hashes mean equal records up to redaction (`recordHash_eq_iff`): the
  canonical dump of the twelve fields determines each of them, the arguments and
  the result in their redacted canonical form.
* The row `Audit.append` writes hashes, when it is read back, to the hash it was
  written with exactly when its numbers survive the store (`written_sound_iff`).
-/
import OpsAssist.Policy.Audit
import OpsAssist.Theory.HashChain

namespace OpsAssist

set_option autoImplicit false

open Theory

variable {host : Host}

/-- The digest treated as collision-free. -/
def CollisionFree (host : Host) : Prop := ∀ s t, host.sha256 s = host.sha256 t → s = t

theorem plain_sha256_toList (s : String) : (Host.plain.sha256 s).toList = 'h' :: s.toList := by
  change ("h" ++ s).toList = 'h' :: s.toList
  rw [String.toList_append]
  rfl

theorem plain_collisionFree : CollisionFree .plain := by
  intro s t same
  have texts := congrArg String.toList same
  rw [plain_sha256_toList, plain_sha256_toList, List.cons.injEq] at texts
  exact String.toList_injective texts.2

/-! ## Equal hashes -/

/-- The redacted canonical form of a value: what the dump shows of it. -/
def seen (host : Host) (v : Value) : Value := (redact host v).canon

/-- Two entries that dump to one text. -/
structure SameRecord (host : Host) (e f : AuditEntry) : Prop where
  requestId : e.requestId = f.requestId
  actorId : e.actorId = f.actorId
  actorRole : e.actorRole = f.actorRole
  event : e.event = f.event
  tool : e.tool = f.tool
  arguments : seen host e.arguments = seen host f.arguments
  decision : e.decision = f.decision
  reason : e.reason = f.reason
  result : seen host e.result = seen host f.result
  pendingActionId : e.pendingActionId = f.pendingActionId
  actionHash : e.actionHash = f.actionHash

theorem Decision.text_injective : ∀ {c d : Decision}, c.text = d.text → c = d := by
  intro c d
  cases c <;> cases d <;> decide

theorem canon_optionalValue (s : Option String) : (optionalValue s).canon = optionalValue s := by
  cases s <;> simp only [optionalValue, Json.canon]

theorem optionalValue_injective : ∀ {s t : Option String},
    optionalValue s = optionalValue t → s = t
  | none, none, _ => rfl
  | some _, some _, same => by
      simp only [optionalValue, Json.str.injEq] at same
      rw [same]
  | none, some _, same => by cases same
  | some _, none, same => by cases same

theorem canon_auditPayload (entry : AuditEntry) (createdAt : String) :
    (auditPayload host entry createdAt).canon =
      .obj [("action_hash", optionalValue entry.actionHash),
        ("actor_id", .str entry.actorId),
        ("actor_role", .str entry.actorRole),
        ("arguments", seen host entry.arguments),
        ("created_at", .str createdAt),
        ("decision", .str entry.decision.text),
        ("event", .str entry.event),
        ("pending_action_id", optionalValue (entry.pendingActionId.map Uuid.text)),
        ("reason", optionalValue entry.reason),
        ("request_id", .str entry.requestId),
        ("result", seen host entry.result),
        ("tool", optionalValue entry.tool)] := by
  simp +decide only [auditPayload, Json.canon, Json.canonMembers, Json.addMember, canon_optionalValue,
    seen, if_true, if_false]

theorem auditPayload_canon_iff {e f : AuditEntry} {c d : Datetime} :
    (auditPayload host e c.isoformat).canon = (auditPayload host f d.isoformat).canon ↔
      c = d ∧ SameRecord host e f := by
  rw [canon_auditPayload, canon_auditPayload]
  simp only [Json.obj.injEq, List.cons.injEq, Prod.mk.injEq, Json.str.injEq, true_and, and_true]
  constructor
  · rintro ⟨actionHash, actorId, actorRole, arguments, createdAt, decision, event, pending, reason,
      requestId, result, tool⟩
    have pendings := optionalValue_injective pending
    exact ⟨Datetime.isoformat_injective createdAt,
      { requestId, actorId, actorRole, event, arguments, result
        tool := optionalValue_injective tool
        decision := Decision.text_injective decision
        reason := optionalValue_injective reason
        pendingActionId := Option.map_injective (fun _ _ => Uuid.text_injective) pendings
        actionHash := optionalValue_injective actionHash }⟩
  · rintro ⟨rfl, same⟩
    refine ⟨?_, same.actorId, same.actorRole, same.arguments, rfl, ?_, same.event, ?_, ?_,
      same.requestId, same.result, ?_⟩
    · rw [same.actionHash]
    · rw [same.decision]
    · rw [same.pendingActionId]
    · rw [same.reason]
    · rw [same.tool]

theorem recordHash_congr {prev : String} {e f : AuditEntry} {c : Datetime}
    (same : SameRecord host e f) :
    recordHash host prev e c.isoformat = recordHash host prev f c.isoformat := by
  rw [recordHash, recordHash, Json.dumps_eq_iff.mpr (auditPayload_canon_iff.mpr ⟨rfl, same⟩)]

/-- **After one hash, equal hashes mean equal records up to redaction.** -/
theorem recordHash_eq_iff (free : CollisionFree host) {prev : String} {e f : AuditEntry}
    {c d : Datetime} :
    recordHash host prev e c.isoformat = recordHash host prev f d.isoformat ↔
      c = d ∧ SameRecord host e f := by
  constructor
  · intro same
    have texts := congrArg String.toList (free _ _ same)
    rw [String.toList_append, String.toList_append] at texts
    have dumps := String.toList_injective (List.append_cancel_left texts)
    exact auditPayload_canon_iff.mp (Json.dumps_eq_iff.mp dumps)
  · rintro ⟨rfl, same⟩
    exact recordHash_congr same

/-! ## The row `append` writes -/

/-- The entry's arguments and result hold only numbers that survive the store. -/
def AuditEntry.Survives (host : Host) (entry : AuditEntry) : Prop :=
  (∀ n ∈ (seen host entry.arguments).numbers, n.Survives) ∧
    ∀ n ∈ (seen host entry.result).numbers, n.Survives

instance (entry : AuditEntry) : Decidable (entry.Survives host) :=
  inferInstanceAs (Decidable (_ ∧ _))

/-- The row holds the entry: its columns are the entry's, the arguments and the
result redacted and stored, and its hash is the entry's after `prevHash`. -/
structure WrittenAs (host : Host) (entry : AuditEntry) (row : AuditRecord) : Prop where
  requestId : row.requestId = entry.requestId
  actorId : row.actorId = entry.actorId
  actorRole : row.actorRole = entry.actorRole
  event : row.event = entry.event
  tool : row.tool = entry.tool
  arguments : ∃ stored, Jsonb.store (redact host entry.arguments) = some stored ∧
    row.arguments = some stored
  decision : row.decision = entry.decision
  reason : row.reason = entry.reason
  result : ∃ stored, Jsonb.store (redact host entry.result) = some stored ∧
    row.result = some stored
  pendingActionId : row.pendingActionId = entry.pendingActionId
  actionHash : row.actionHash = entry.actionHash
  hash : row.hash = recordHash host row.prevHash entry row.createdAt.isoformat

/-- What a successful append writes. -/
theorem append_spec {createdAt : Datetime} {id : Nat} {entry : AuditEntry}
    {rows : List AuditLog} {row : AuditLog}
    (done : Audit.append host createdAt id entry rows = some row) :
    WrittenAs host entry row.toAuditRecord ∧ row.id = id ∧ row.createdAt = createdAt ∧
      row.prevHash = lastHash rows ∧ insertable rows row = true := by
  unfold Audit.append at done
  simp only [Option.bind_eq_bind, Option.bind_eq_some_iff] at done
  obtain ⟨arguments, storedArguments, result, storedResult, done⟩ := done
  split at done
  · rename_i fits
    cases done
    exact ⟨⟨rfl, rfl, rfl, rfl, rfl, ⟨_, storedArguments, rfl⟩, rfl, rfl, ⟨_, storedResult, rfl⟩,
      rfl, rfl, rfl⟩, rfl, rfl, rfl, fits⟩
  · cases done

theorem sameRecord_of_written {entry : AuditEntry} {row : AuditRecord}
    (written : WrittenAs host entry row) : SameRecord host entry row.entry ↔
      entry.Survives host := by
  obtain ⟨arguments, storedArguments, columnA⟩ := written.arguments
  obtain ⟨result, storedResult, columnR⟩ := written.result
  have argumentsIff := canon_redact_read_iff storedArguments
  have resultIff := canon_redact_read_iff storedResult
  have readA : row.entry.arguments = arguments.read := by
    simp only [AuditRecord.entry, columnA, readColumn]
  have readR : row.entry.result = result.read := by
    simp only [AuditRecord.entry, columnR, readColumn]
  constructor
  · intro same
    have seenA := same.arguments
    have seenR := same.result
    rw [readA] at seenA
    rw [readR] at seenR
    exact ⟨argumentsIff.mp seenA.symm, resultIff.mp seenR.symm⟩
  · intro survives
    exact {
      requestId := written.requestId.symm
      actorId := written.actorId.symm
      actorRole := written.actorRole.symm
      event := written.event.symm
      tool := written.tool.symm
      arguments := by rw [readA]; exact (argumentsIff.mpr survives.1).symm
      decision := written.decision.symm
      reason := written.reason.symm
      result := by rw [readR]; exact (resultIff.mpr survives.2).symm
      pendingActionId := written.pendingActionId.symm
      actionHash := written.actionHash.symm }

/-! ## The chain of records -/

/-- The log as a chain: a record's digest is the hash of what is read back from it. -/
def recordChain (host : Host) : HashChain AuditRecord String where
  prev row := row.prevHash
  hash row := row.hash
  digest prev row := recordHash host prev row.entry row.createdAt.isoformat

theorem sound_iff {row : AuditRecord} : (recordChain host).Sound row ↔
    row.hash = recordHash host row.prevHash row.entry row.createdAt.isoformat := Iff.rfl

/-- A written row is sound as soon as its entry survives. -/
theorem written_sound {entry : AuditEntry} {row : AuditRecord}
    (written : WrittenAs host entry row) (survives : entry.Survives host) :
    (recordChain host).Sound row := by
  rw [sound_iff, written.hash]
  exact recordHash_congr ((sameRecord_of_written written).mpr survives)

/-- **A written row is sound exactly when its entry survives.** -/
theorem written_sound_iff (free : CollisionFree host) {entry : AuditEntry} {row : AuditRecord}
    (written : WrittenAs host entry row) :
    (recordChain host).Sound row ↔ entry.Survives host := by
  rw [sound_iff, written.hash, recordHash_eq_iff free, sameRecord_of_written written, eq_self,
    true_and]

end OpsAssist
