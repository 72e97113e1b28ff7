/-
# OpsAssist.Policy.Audit -- the tamper-evident audit log

Every record is written with the hash of the previous one:

    hash(n) = sha256(prev_hash || canonical_json(record))

`Audit.append` hashes the entry it holds in memory and stores the redacted entry;
`verifyChain` reads the rows back, redacts them once more and hashes those.
-/
import OpsAssist.Auth
import OpsAssist.Policy.Redaction
import OpsAssist.Theory.Stamp
import Mathlib.Data.List.Sort

namespace OpsAssist

set_option autoImplicit false

open Theory

def GENESIS : String := String.ofList (List.replicate 64 '0')

inductive Decision where
  | allow
  | deny
  | pending
  | executed
  | error
deriving DecidableEq

def Decision.text : Decision → String
  | .allow => "allow"
  | .deny => "deny"
  | .pending => "pending"
  | .executed => "executed"
  | .error => "error"

/-- One record as the program holds it; `null` arguments or result stand for `None`. -/
structure AuditEntry where
  requestId : String
  actorId : String
  actorRole : String
  event : String
  decision : Decision
  tool : Option String := none
  arguments : Value := .null
  reason : Option String := none
  result : Value := .null
  pendingActionId : Option Uuid := none
  actionHash : Option String := none

/-- The columns of a row of `audit_log` besides its key. -/
structure AuditRecord where
  createdAt : Datetime
  requestId : String
  actorId : String
  actorRole : String
  event : String
  tool : Option String
  arguments : Option Jsonb
  decision : Decision
  reason : Option String
  result : Option Jsonb
  pendingActionId : Option Uuid
  actionHash : Option String
  prevHash : String
  hash : String

/-- A row of `audit_log`. -/
structure AuditLog extends AuditRecord where
  id : Nat

/-! ## Hashing a record -/

/-- The dictionary that is dumped and hashed. -/
def auditPayload (host : Host) (entry : AuditEntry) (createdAt : String) : Value :=
  .obj [("created_at", .str createdAt),
    ("request_id", .str entry.requestId),
    ("actor_id", .str entry.actorId),
    ("actor_role", .str entry.actorRole),
    ("event", .str entry.event),
    ("tool", optionalValue entry.tool),
    ("arguments", redact host entry.arguments),
    ("decision", .str entry.decision.text),
    ("reason", optionalValue entry.reason),
    ("result", redact host entry.result),
    ("pending_action_id", optionalValue (entry.pendingActionId.map Uuid.text)),
    ("action_hash", optionalValue entry.actionHash)]

def recordHash (host : Host) (prevHash : String) (entry : AuditEntry) (createdAt : String) :
    String :=
  host.sha256 (prevHash ++ (auditPayload host entry createdAt).dumps)

/-! ## Reading rows -/

/-- What the program reads from a JSONB column; SQL `NULL` is `None`. -/
def readColumn : Option Jsonb → Value
  | none => .null
  | some stored => stored.read

/-- The entry `verify_chain` rebuilds from a row. -/
def AuditRecord.entry (row : AuditRecord) : AuditEntry :=
  { requestId := row.requestId, actorId := row.actorId, actorRole := row.actorRole,
    event := row.event, decision := row.decision, tool := row.tool,
    arguments := readColumn row.arguments, reason := row.reason,
    result := readColumn row.result, pendingActionId := row.pendingActionId,
    actionHash := row.actionHash }

/-- `ORDER BY id` -/
def orderById (rows : List AuditLog) : List AuditLog :=
  rows.insertionSort fun a b => a.id ≤ b.id

/-! ## Appending -/

/-- Whether the database takes a text value. -/
def textOk (s : String) : Bool := Jsonb.noNul s

def optionalTextOk : Option String → Bool
  | none => true
  | some s => textOk s

/-- The constraints of the table: no NUL in a text column (a digest has none), and
unique `id` and `hash`. -/
def insertable (rows : List AuditLog) (row : AuditLog) : Bool :=
  textOk row.requestId && textOk row.actorId && textOk row.actorRole && textOk row.event &&
    optionalTextOk row.tool && optionalTextOk row.reason && optionalTextOk row.actionHash &&
    rows.all fun other => other.id != row.id && other.hash != row.hash

/-- The hash the next record links to: the last row's, or the genesis. -/
def lastHash (rows : List AuditLog) : String :=
  match (orderById rows).getLast? with
  | none => GENESIS
  | some last => last.hash

/-- Append one record to the rows the transaction sees; `id` is the next value of the
identity and `createdAt` the transaction's `now()`.  `none` is an exception of the
flush: the database refuses a value or a constraint fails. -/
def Audit.append (host : Host) (createdAt : Datetime) (id : Nat) (entry : AuditEntry)
    (rows : List AuditLog) : Option AuditLog := do
  let prevHash := lastHash rows
  let arguments ← Jsonb.store (redact host entry.arguments)
  let result ← Jsonb.store (redact host entry.result)
  let row : AuditLog :=
    { createdAt, requestId := entry.requestId, actorId := entry.actorId,
      actorRole := entry.actorRole, event := entry.event, tool := entry.tool,
      arguments := some arguments, decision := entry.decision, reason := entry.reason,
      result := some result, pendingActionId := entry.pendingActionId,
      actionHash := entry.actionHash, prevHash,
      hash := recordHash host prevHash entry createdAt.isoformat, id }
  if insertable rows row then some row else none

/-! ## Verifying -/

structure ChainStatus where
  records : Nat
  intact : Bool
  brokenAt : Option Nat := none
  detail : Option String := none
deriving DecidableEq

/-- The loop of `verify_chain` over the rows in order, `prev` being the hash the next
row has to name. -/
def verifyFrom (host : Host) (count : Nat) (prev : String) : List AuditLog → ChainStatus
  | [] => { records := count, intact := true }
  | row :: rest =>
      if row.prevHash ≠ prev then
        { records := count, intact := false, brokenAt := some row.id,
          detail := some "previous hash does not match" }
      else if row.hash ≠ recordHash host prev row.entry row.createdAt.isoformat then
        { records := count, intact := false, brokenAt := some row.id,
          detail := some "record content does not match its hash" }
      else verifyFrom host count row.hash rest

def verifyChain (host : Host) (rows : List AuditLog) : ChainStatus :=
  let ordered := orderById rows
  verifyFrom host ordered.length GENESIS ordered

end OpsAssist
