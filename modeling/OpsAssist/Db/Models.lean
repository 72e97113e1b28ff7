/-
# OpsAssist.Db.Models -- the tables the tools act on, and transactions over them

`Db` holds the tables the tool executor reads and writes.  A transaction maps the
database it starts from to a result and the database it would commit, or to the
exception that rolls it back.  Inserts and updates check the constraints of their
table: keys, foreign keys, unique columns and the NUL character text columns refuse.
-/
import OpsAssist.Policy.Audit

namespace OpsAssist

set_option autoImplicit false

open Theory

/-- An instant in microseconds since 1970-01-01 UTC. -/
abbrev Instant := Int

structure User where
  id : String
  name : String
  department : String
  role : String
  permissions : List String
  isActive : Bool

structure Server where
  id : String
  environment : String
  ownerDepartment : String
  status : String
  cpuPct : Option Numeric
  memoryPct : Option Numeric
  lastCheck : Instant

structure Ticket where
  id : String
  title : String
  severity : String
  details : String
  status : String := "open"
  createdBy : String
  idempotencyKey : String
  createdAt : Instant

structure VpnProfile where
  id : String
  employeeId : String
  durationDays : Int
  requestedBy : String
  approvedBy : String
  pendingActionId : Uuid
  createdAt : Instant
  expiresAt : Instant

inductive PendingStatus where
  | pending
  | approved
  | rejected
  | executed
  | expired
  | failed
deriving DecidableEq

def PendingStatus.text : PendingStatus → String
  | .pending => "pending"
  | .approved => "approved"
  | .rejected => "rejected"
  | .executed => "executed"
  | .expired => "expired"
  | .failed => "failed"

/-- A sensitive action proposed by one user, awaiting a different authorized approver. -/
structure PendingAction where
  id : Uuid
  conversationId : Option Uuid
  requesterId : String
  tool : String
  arguments : Jsonb
  summary : String
  actionHash : String
  requiresPermission : String
  approvePermission : String
  status : PendingStatus := .pending
  approverId : Option String := none
  result : Option Jsonb := none
  requestId : String
  createdAt : Instant
  expiresAt : Instant
  decidedAt : Option Instant := none
  executedAt : Option Instant := none

structure Db where
  users : List User
  servers : List Server
  tickets : List Ticket
  vpnProfiles : List VpnProfile
  pendingActions : List PendingAction
  auditLog : List AuditLog

/-! ## Transactions -/

/-- The exceptions that leave a transaction. -/
inductive Raised where
  /-- the database refuses a statement -/
  | database
  /-- pydantic's `ValidationError` -/
  | validation
  /-- `ToolDenied`, where nothing catches it -/
  | toolDenied
  | keyError
  /-- retrieval fails -/
  | retrieval
deriving DecidableEq

/-- A computation inside one transaction. -/
def Tx (α : Type) := Db → Except Raised (α × Db)

namespace Tx

variable {α β : Type}

def andThen (first : Tx α) (next : α → Tx β) : Tx β := fun db =>
  match first db with
  | .error raised => .error raised
  | .ok (a, db') => next a db'

instance : Monad Tx where
  pure a := fun db => .ok (a, db)
  bind := andThen

def read (f : Db → α) : Tx α := fun db => .ok (f db, db)

def raise (raised : Raised) : Tx α := fun _ => .error raised

/-- A sequence succeeds when both parts do. -/
theorem bind_eq_ok {first : Tx α} {next : α → Tx β} {db : Db} {r : β × Db} :
    (first >>= next) db = .ok r ↔
      ∃ a db', first db = .ok (a, db') ∧ next a db' = .ok r := by
  change andThen first next db = .ok r ↔ _
  unfold andThen
  cases here : first db with
  | error raised => simp
  | ok pair => obtain ⟨a, db'⟩ := pair; simp

@[simp] theorem pure_eq_ok {a : α} {db : Db} {r : α × Db} :
    (pure a : Tx α) db = .ok r ↔ r = (a, db) := by
  change Except.ok (a, db) = .ok r ↔ _
  rw [Except.ok.injEq]
  exact eq_comm

@[simp] theorem read_eq_ok {f : Db → α} {db : Db} {r : α × Db} :
    read f db = .ok r ↔ r = (f db, db) := by
  rw [read, Except.ok.injEq]
  exact eq_comm

@[simp] theorem read_bind {f : Db → α} {next : α → Tx β} {db : Db} :
    (read f >>= next) db = next (f db) db := rfl

@[simp] theorem raise_ne_ok {raised : Raised} {db : Db} {r : α × Db} :
    (raise raised : Tx α) db ≠ .ok r := by
  simp [raise]

end Tx

namespace Db

/-! ## Reading -/

def user (db : Db) (id : String) : Option User := db.users.find? fun u => u.id == id
def server (db : Db) (id : String) : Option Server := db.servers.find? fun s => s.id == id
def ticket (db : Db) (id : String) : Option Ticket := db.tickets.find? fun t => t.id == id

def pendingAction (db : Db) (id : Uuid) : Option PendingAction :=
  db.pendingActions.find? fun p => p.id == id

/-! ## Constraints -/

def hasUser (db : Db) (id : String) : Bool := db.users.any fun u => u.id == id

/-- What the table requires of a ticket besides its keys. -/
def ticketOk (db : Db) (t : Ticket) : Bool :=
  textOk t.id && textOk t.title && textOk t.details && textOk t.idempotencyKey &&
    db.hasUser t.createdBy &&
    db.tickets.all fun other => other.id != t.id && other.idempotencyKey != t.idempotencyKey

def profileOk (db : Db) (p : VpnProfile) : Bool :=
  textOk p.id && db.hasUser p.employeeId && db.hasUser p.requestedBy && db.hasUser p.approvedBy &&
    db.vpnProfiles.all fun other =>
      other.id != p.id && other.pendingActionId != p.pendingActionId

def pendingOk (db : Db) (p : PendingAction) : Bool :=
  textOk p.tool && textOk p.summary && textOk p.actionHash && textOk p.requiresPermission &&
    textOk p.approvePermission && textOk p.requestId && db.hasUser p.requesterId &&
    db.pendingActions.all fun other => other.id != p.id

/-! ## Writing -/

def insertTicket (t : Ticket) : Tx Unit := fun db =>
  if db.ticketOk t then .ok ((), { db with tickets := db.tickets ++ [t] })
  else .error .database

def insertProfile (p : VpnProfile) : Tx Unit := fun db =>
  if db.profileOk p then .ok ((), { db with vpnProfiles := db.vpnProfiles ++ [p] })
  else .error .database

def insertPending (p : PendingAction) : Tx Unit := fun db =>
  if db.pendingOk p then .ok ((), { db with pendingActions := db.pendingActions ++ [p] })
  else .error .database

/-- Change the row with a key; a decider must be a known user. -/
def updatePending (id : Uuid) (change : PendingAction → PendingAction) : Tx Unit := fun db =>
  let rows := db.pendingActions.map fun p => if p.id = id then change p else p
  if rows.all fun p => p.id != id || (p.approverId.map db.hasUser).getD true then
    .ok ((), { db with pendingActions := rows })
  else .error .database

/-- Record approver and action of a profile; the approver must be a known user and the
action id unique. -/
def updateProfile (id : String) (approver : String) (action : Uuid) : Tx Unit := fun db =>
  if db.hasUser approver &&
      db.vpnProfiles.all fun other => other.id == id || other.pendingActionId != action then
    .ok ((), { db with
      vpnProfiles := db.vpnProfiles.map fun p =>
        if p.id = id then { p with approvedBy := approver, pendingActionId := action } else p })
  else .error .database

/-! ## What a write does -/

theorem checked_eq_ok {α : Type} {c : Prop} [Decidable c] {a r : α} {raised : Raised} :
    (if c then (.ok a : Except Raised α) else .error raised) = .ok r ↔ c ∧ r = a := by
  by_cases holds : c
  · rw [if_pos holds, Except.ok.injEq]
    exact ⟨fun same => ⟨holds, same.symm⟩, fun both => both.2.symm⟩
  · simp [holds]

theorem insertTicket_eq_ok {t : Ticket} {db : Db} {r : Unit × Db} :
    insertTicket t db = .ok r ↔
      db.ticketOk t = true ∧ r = ((), { db with tickets := db.tickets ++ [t] }) := by
  unfold insertTicket
  exact checked_eq_ok

theorem insertProfile_eq_ok {p : VpnProfile} {db : Db} {r : Unit × Db} :
    insertProfile p db = .ok r ↔
      db.profileOk p = true ∧ r = ((), { db with vpnProfiles := db.vpnProfiles ++ [p] }) := by
  unfold insertProfile
  exact checked_eq_ok

/-- A profile the table takes has a new id. -/
theorem profileOk_fresh {p : VpnProfile} {db : Db} (fits : db.profileOk p = true) :
    ∀ other ∈ db.vpnProfiles, other.id ≠ p.id := by
  simp only [profileOk, Bool.and_eq_true, List.all_eq_true, bne_iff_ne] at fits
  exact fun other mem => (fits.2 other mem).1

/-- A pending action the table takes has a new id. -/
theorem pendingOk_fresh {p : PendingAction} {db : Db} (fits : db.pendingOk p = true) :
    ∀ other ∈ db.pendingActions, other.id ≠ p.id := by
  simp only [pendingOk, Bool.and_eq_true, List.all_eq_true, bne_iff_ne] at fits
  exact fits.2

theorem insertPending_eq_ok {p : PendingAction} {db : Db} {r : Unit × Db} :
    insertPending p db = .ok r ↔
      db.pendingOk p = true ∧ r = ((), { db with pendingActions := db.pendingActions ++ [p] }) := by
  unfold insertPending
  exact checked_eq_ok

/-- The rows after a change of the row with a key. -/
def changePending (id : Uuid) (change : PendingAction → PendingAction)
    (rows : List PendingAction) : List PendingAction :=
  rows.map fun p => if p.id = id then change p else p

theorem updatePending_ok {id : Uuid} {change : PendingAction → PendingAction} {db : Db}
    {r : Unit × Db} (done : updatePending id change db = .ok r) :
    r = ((), { db with pendingActions := changePending id change db.pendingActions }) := by
  unfold updatePending at done
  exact (checked_eq_ok.mp done).2

/-- The profiles after approver and action of one of them are recorded. -/
def approveProfile (id : String) (approver : String) (action : Uuid) (rows : List VpnProfile) :
    List VpnProfile :=
  rows.map fun p => if p.id = id then { p with approvedBy := approver, pendingActionId := action } else p

theorem updateProfile_ok {id approver : String} {action : Uuid} {db : Db} {r : Unit × Db}
    (done : updateProfile id approver action db = .ok r) :
    r = ((), { db with vpnProfiles := approveProfile id approver action db.vpnProfiles }) := by
  unfold updateProfile at done
  exact (checked_eq_ok.mp done).2

end Db

end OpsAssist
