/-
# OpsAssist.Tools.Executor -- authorize, execute and audit tool calls

The handlers of the five tools, `runTool`, `approvePending` and `rejectPending`, each
as one transaction.  What a call takes from outside (the clocks, the sequences, the
generated UUID, what retrieval finds) is its `Env`.

A handler's own failures (`ToolFailure`) are results, which the caller may turn into
an audited outcome; every other exception rolls the transaction back.
-/
import OpsAssist.Db.Models
import OpsAssist.Tools.Registry

namespace OpsAssist

set_option autoImplicit false

open Theory Theory.Text

def microsecondsPerDay : Int := 86400000000
def PENDING_TTL : Int := microsecondsPerDay
def TICKET_IDEMPOTENCY_WINDOW : Int := 600000000

/-- A retrieved chunk as the search tool lists it. -/
structure Hit where
  title : String
  ref : String
  department : String
  text : String

/-- What one call takes from outside the database. -/
structure Env where
  /-- `datetime.now(UTC)` -/
  now : Instant
  /-- `now()` of the transaction -/
  dbNow : Instant
  /-- the next values of the identity and the two sequences -/
  auditId : Nat
  ticketNumber : Nat
  profileNumber : Nat
  /-- `uuid.uuid4()`; no call takes two -/
  uuid : Uuid
  /-- what retrieval returns for the search tool; `none` when it fails -/
  retrieved : Option (List Hit) := some []

structure ToolContext where
  requestId : String
  conversationId : Option Uuid := none
  userMessage : Option String := none

inductive Status where
  | ok
  | denied
  | pending
  | error
deriving DecidableEq

structure ToolOutcome where
  status : Status
  tool : String
  message : String
  data : Option Value := none
  pendingActionId : Option Uuid := none
  actionHash : Option String := none

variable (host : Host)

/-- Pins the exact action an approver confirms. -/
def actionHash (tool : String) (args : Value) (requesterId : String) : String :=
  host.sha256 (Json.dumps (.obj
    [("tool", .str tool), ("arguments", args), ("requester", .str requesterId)]))

/-- An instant as the session's time zone shows it. -/
def isoformat (instant : Instant) : String :=
  (Datetime.ofInstant instant (host.zone instant)).isoformat

/-! ## Handlers -/

/-- `ToolError` and `ToolDenied`. -/
inductive ToolFailure where
  | error (text : String)
  | denied (text : String)

/-- A handler's result, or the failure it raises. -/
abbrev Handled := Except ToolFailure Value

def searchInternalDocs (env : Env) (department : Option String) : Tx Handled :=
  match env.retrieved with
  | none => .raise .retrieval
  | some chunks =>
      let hits := chunks.filter fun c => department.isNone || department == some c.department
      return .ok (.obj
        [("hits", .arr (hits.map fun c => .obj
          [("title", .str c.title), ("ref", .str c.ref), ("department", .str c.department),
            ("text", .str c.text)])),
          ("count", .num (.int hits.length))])

/-- `float(decimal)` -/
def decimalFloat (d : Numeric) : Value :=
  .num (Numeric.toFloat (d.coefficient < 0)
    (Binary64.ofDecimal (d.coefficient < 0) d.coefficient.natAbs (-d.scale)))

/-- Utilisation is only visible to the owning department and IT Operations. -/
def visibleServerFields (principal : Principal) (server : Server) : Value :=
  let fields : List (String × Value) :=
    [("server_id", .str server.id), ("environment", .str server.environment),
      ("owner_department", .str server.ownerDepartment), ("status", .str server.status),
      ("last_check", .str (isoformat host server.lastCheck))]
  if principal.department = server.ownerDepartment ∨ principal.department = "it_ops" then
    .obj (fields ++ [("cpu_pct", (server.cpuPct.map decimalFloat).getD .null),
      ("memory_pct", (server.memoryPct.map decimalFloat).getD .null)])
  else
    .obj (fields ++
      [("utilisation", .str "hidden: visible to the owning department and IT Operations")])

def getServerStatus (principal : Principal) (serverId : String) : Tx Handled := do
  match ← Tx.read fun db => db.server serverId with
  | none => return .error (.error ("no server with id " ++ host.repr serverId))
  | some server => return .ok (visibleServerFields host principal server)

/-- Keep the requester's own words with the ticket. -/
def withProvenance (details : String) (request : Option String) : String :=
  let words := strip (request.getD "").toList
  if words.isEmpty || contains (host.lower words) (host.lower details.toList) then details
  else details ++ "\n\nRaised from: \"" ++ String.ofList words ++ "\""

/-- `uuid.hex[:8]` -/
def hexPrefix (uuid : Uuid) : String := String.ofList (Uuid.group uuid 7 ++ Uuid.group uuid 6)

def createSupportTicket (env : Env) (principal : Principal) (title : String) (severity : Severity)
    (details : String) (userMessage : Option String) : Tx Handled := do
  let key := host.sha256 (principal.userId ++ "|" ++ title ++ "|" ++ severity.text ++ "|" ++ details)
  let insert (key : String) : Tx Handled := do
    let ticket : Ticket :=
      { id := "INC-" ++ toString env.ticketNumber, title, severity := severity.text,
        details := withProvenance host details userMessage, createdBy := principal.userId,
        idempotencyKey := key, createdAt := env.dbNow }
    Db.insertTicket ticket
    return .ok (.obj
      [("ticket_id", .str ticket.id), ("title", .str ticket.title),
        ("severity", .str ticket.severity), ("status", .str ticket.status),
        ("details", .str ticket.details)])
  match ← Tx.read fun db => db.tickets.find? fun t => t.idempotencyKey == key with
  | none => insert key
  | some existing =>
      if env.now - existing.createdAt < TICKET_IDEMPOTENCY_WINDOW then
        return .ok (.obj
          [("ticket_id", .str existing.id), ("status", .str existing.status),
            ("duplicate", .bool true)])
      else insert (key ++ ":" ++ hexPrefix env.uuid)

/-- A ticket is visible to the person who raised it and to their department. -/
def getSupportTicket (principal : Principal) (ticketId : String) : Tx Handled := do
  match ← Tx.read fun db => db.ticket ticketId with
  | none => return .error (.error ("no ticket with id " ++ host.repr ticketId))
  | some ticket =>
      let raiser ← Tx.read fun db => db.user ticket.createdBy
      let own := ticket.createdBy == principal.userId
      let sameTeam := (raiser.map fun r => r.department == principal.department).getD false
      if own || sameTeam then
        return .ok (.obj
          [("ticket_id", .str ticket.id), ("title", .str ticket.title),
            ("severity", .str ticket.severity), ("status", .str ticket.status),
            ("details", .str ticket.details), ("raised_by", .str ticket.createdBy),
            ("raised_at", .str (isoformat host ticket.createdAt))])
      else return .error (.denied (ticketId ++ " belongs to another department"))

/-- The employee an id or a name denotes, or why there is none. -/
def resolveEmployee (employeeId employeeName : Option String) (db : Db) : Except String User :=
  if filled employeeId then
    match db.user (employeeId.getD "") with
    | none => .error ("no employee with id " ++ host.repr (employeeId.getD ""))
    | some user => .ok user
  else
    let given := employeeName.getD ""
    let name := host.lower (strip given.toList)
    let matched := db.users.filter fun u => like ('%' :: name ++ ['%']) (host.sqlLower u.name.toList)
    match matched with
    | [] => .error ("no employee named " ++ host.repr given)
    | [user] => .ok user
    | _ =>
        .error (host.repr given ++ " matches " ++ toString matched.length ++
          " employees; ask for the employee id")

/-- The profile is first written with the requester as approver and a random action id;
`approvePending` replaces both. -/
def createVpnProfile (env : Env) (principal : Principal) (employeeId employeeName : Option String)
    (durationDays : Int) : Tx Handled := do
  match ← Tx.read (resolveEmployee host employeeId employeeName) with
  | .error text => return .error (.error text)
  | .ok employee =>
      let profile : VpnProfile :=
        { id := "VPN-" ++ String.ofList (Numeral.zeroPad 4 env.profileNumber),
          employeeId := employee.id, durationDays, requestedBy := principal.userId,
          approvedBy := principal.userId, pendingActionId := env.uuid, createdAt := env.dbNow,
          expiresAt := env.now + durationDays * microsecondsPerDay }
      Db.insertProfile profile
      return .ok (.obj
        [("profile_id", .str profile.id), ("employee_id", .str employee.id),
          ("expires_at", .str (Datetime.ofInstant profile.expiresAt 0).isoformat)])

/-- `HANDLERS[tool](session, principal, args, ctx)`; each tool's handler takes the
arguments of its own model. -/
def handle (env : Env) (principal : Principal) (args : ToolArgs) (ctx : ToolContext) :
    Tx Handled :=
  match args with
  | .searchInternalDocs _ department => searchInternalDocs env department
  | .getServerStatus serverId => getServerStatus host principal serverId
  | .createSupportTicket title severity details =>
      createSupportTicket host env principal title severity details ctx.userMessage
  | .getSupportTicket ticketId => getSupportTicket host principal ticketId
  | .createVpnProfile employeeId employeeName durationDays =>
      createVpnProfile host env principal employeeId employeeName durationDays

/-! ## Authorization -/

/-- Returns a denial reason, or `none` when the caller may use the tool. -/
def authorize (principal : Principal) (spec : ToolSpec) : Option String :=
  match spec.requiresPermission with
  | none => none
  | some permission =>
      if permission ≠ "" ∧ principal.has permission = false then
        some ("requires the " ++ permission ++ " permission")
      else none

def summarize (spec : ToolSpec) (args : ToolArgs) : String :=
  match spec.name == "create_vpn_profile", args with
  | true, .createVpnProfile employeeId employeeName durationDays =>
      let who := if filled employeeId then employeeId.getD "" else employeeName.getD "None"
      "Create a VPN profile for " ++ who ++ " valid for " ++ toString durationDays ++ " days"
  | _, _ => "Run " ++ spec.name

/-- Append the record of a decision and return its outcome: the end of every audited
path. -/
def audited (env : Env) (entry : AuditEntry) (outcome : ToolOutcome) : Tx ToolOutcome := fun db =>
  let createdAt := Datetime.ofInstant env.dbNow (host.zone env.dbNow)
  match Audit.append host createdAt env.auditId entry db.auditLog with
  | none => .error .database
  | some row => .ok (outcome, { db with auditLog := db.auditLog ++ [row] })

/-- The text of a validation error. -/
def errorReason (errors : List FieldError) : String :=
  String.intercalate "; " (errors.map fun e =>
    String.intercalate "." e.loc ++ ": " ++ host.errorText e.kind)

/-- The text `f"{value}"` gives for an optional permission. -/
def formatted (value : Option String) : String := value.getD "None"

/-- Store what a column of type JSONB takes. -/
def stored (v : Value) : Tx Jsonb := fun db =>
  match Jsonb.store v with
  | none => .error .database
  | some b => .ok (b, db)

/-- `_run_tool`: validate, authorize and run (or propose) one tool call. -/
def runTool (env : Env) (principal : Principal) (tool : String) (rawArgs : Value)
    (ctx : ToolContext) : Tx ToolOutcome :=
  let entry : AuditEntry :=
    { requestId := ctx.requestId, actorId := principal.userId, actorRole := principal.role,
      event := "tool_call", decision := .deny, tool := some tool }
  match findTool tool with
  | none =>
      audited host env { entry with reason := some "unknown tool" }
        { status := .denied, tool, message := host.repr tool ++ " is not an available tool" }
  | some spec =>
      match spec.argsModel.validate host rawArgs with
      | .error errors =>
          let reason := errorReason host errors
          audited host env
            { entry with arguments := rawArgs, reason := some ("invalid arguments: " ++ reason) }
            { status := .error, tool,
              message := "invalid arguments for " ++ tool ++ ": " ++ reason }
      | .ok args =>
          let validated := args.dump
          match authorize principal spec with
          | some denial =>
              audited host env { entry with arguments := validated, reason := some denial }
                { status := .denied, tool, message := "You are not authorized: " ++ denial ++ "." }
          | none =>
              if spec.sensitive then do
                let digest := actionHash host tool validated principal.userId
                let arguments ← stored validated
                let pending : PendingAction :=
                  { id := env.uuid, conversationId := ctx.conversationId,
                    requesterId := principal.userId, tool, arguments,
                    summary := summarize spec args, actionHash := digest,
                    requiresPermission := spec.requiresPermission.getD "",
                    approvePermission := spec.approvePermission.getD "",
                    requestId := ctx.requestId, createdAt := env.dbNow,
                    expiresAt := env.now + PENDING_TTL }
                Db.insertPending pending
                audited host env
                  { entry with
                    decision := .pending, arguments := validated,
                    reason := some ("awaiting approval by a different holder of " ++
                      formatted spec.approvePermission),
                    pendingActionId := some pending.id, actionHash := some digest }
                  { status := .pending, tool,
                    message := pending.summary ++ ". This needs approval from someone with " ++
                      formatted spec.approvePermission ++ ", who must be a different person.",
                    pendingActionId := some pending.id, actionHash := some digest }
              else do
                match ← handle host env principal args ctx with
                | .error (.denied text) =>
                    audited host env { entry with arguments := validated, reason := some text }
                      { status := .denied, tool,
                        message := "You are not authorized: " ++ text ++ "." }
                | .error (.error text) =>
                    audited host env
                      { entry with
                        decision := .error, arguments := validated, reason := some text }
                      { status := .error, tool, message := text }
                | .ok result =>
                    audited host env
                      { entry with decision := .executed, arguments := validated, result }
                      { status := .ok, tool, message := tool ++ " completed", data := some result }

/-! ## Approvals -/

/-- The active user as a principal, with the permissions the database has now. -/
def principalOf (db : Db) (userId : String) : Option Principal :=
  match db.user userId with
  | none => none
  | some user =>
      if user.isActive then
        some { userId := user.id, name := user.name, department := user.department,
               role := user.role, permissions := user.permissions }
      else none

/-- The text under a key of a handler's result. -/
def textMember (key : String) : Value → Option String
  | .obj members =>
      match members.lookup key with
      | some (.str s) => some s
      | _ => none
  | _ => none

/-- Record who approved a created profile. -/
def recordApprover (tool : String) (result : Value) (approverId : String) (action : Uuid) :
    Tx Unit :=
  if tool = "create_vpn_profile" then
    match textMember "profile_id" result with
    | none => .raise .keyError
    | some id => do
        match ← Tx.read fun db => db.vpnProfiles.find? fun p => p.id == id with
        | none => return ()
        | some _ => Db.updateProfile id approverId action
  else return ()

/-- `_approve_pending`: execute a pending action after an explicit, matching confirmation. -/
def approvePending (env : Env) (approver : Principal) (pendingId : Uuid) (confirmHash : String)
    (ctx : ToolContext) : Tx ToolOutcome := do
  let entry : AuditEntry :=
    { requestId := ctx.requestId, actorId := approver.userId, actorRole := approver.role,
      event := "approval", decision := .deny, pendingActionId := some pendingId }
  match ← Tx.read fun db => db.pendingAction pendingId with
  | none =>
      audited host env { entry with reason := some "unknown pending action" }
        { status := .denied, tool := "", message := "That action does not exist." }
  | some pending =>
      let entry := { entry with tool := some pending.tool }
      let denied (message : String) : ToolOutcome :=
        { status := .denied, tool := pending.tool, message }
      if pending.status ≠ .pending then
        audited host env { entry with reason := some ("already " ++ pending.status.text) }
          (denied ("That action is already " ++ pending.status.text ++ "."))
      else if pending.expiresAt < env.now then do
        Db.updatePending pendingId fun p =>
          { p with status := .expired, decidedAt := some env.dbNow }
        audited host env { entry with reason := some "expired" }
          (denied "That action has expired.")
      else if approver.has pending.approvePermission = false then
        audited host env
          { entry with
            reason := some ("approver lacks " ++ pending.approvePermission),
            actionHash := some pending.actionHash }
          (denied ("You need the " ++ pending.approvePermission ++ " permission."))
      else if approver.userId = pending.requesterId then
        audited host env
          { entry with
            reason := some "requester and approver must be different people",
            actionHash := some pending.actionHash }
          (denied "The requester cannot approve their own request.")
      else if confirmHash ≠ pending.actionHash then
        audited host env { entry with reason := some "confirmation does not match" }
          (denied
            "That confirmation does not match the pending action; review it again.")
      else do
        let requester ← Tx.read fun db => principalOf db pending.requesterId
        match findTool pending.tool with
        | none => .raise .keyError
        | some spec =>
            match requester.filter fun r => (authorize r spec).isNone with
            | none => do
                Db.updatePending pendingId fun p =>
                  { p with status := .rejected, decidedAt := some env.dbNow }
                audited host env
                  { entry with
                    reason := some "requester no longer holds the required permission",
                    actionHash := some pending.actionHash }
                  (denied "The requester is no longer authorized for this action.")
            | some requester =>
                match spec.argsModel.validate host pending.arguments.read with
                | .error _ => .raise .validation
                | .ok args => do
                    match ← handle host env requester args ctx with
                    | .error (.denied _) => .raise .toolDenied
                    | .error (.error text) => do
                        Db.updatePending pendingId fun p =>
                          { p with status := .failed, decidedAt := some env.dbNow }
                        audited host env
                          { entry with
                            decision := .error, reason := some text,
                            actionHash := some pending.actionHash }
                          { status := .error, tool := pending.tool, message := text }
                    | .ok result => do
                        recordApprover pending.tool result approver.userId pending.id
                        let column ← stored result
                        Db.updatePending pendingId fun p =>
                          { p with
                            status := .executed, approverId := some approver.userId,
                            result := some column, decidedAt := some env.dbNow,
                            executedAt := some env.dbNow }
                        audited host env
                          { entry with
                            decision := .executed, arguments := pending.arguments.read, result,
                            actionHash := some pending.actionHash,
                            reason := some ("approved by " ++ approver.userId ++
                              " for requester " ++ pending.requesterId) }
                          { status := .ok, tool := pending.tool,
                            message := pending.summary ++ " - approved and executed.",
                            data := some result, pendingActionId := some pending.id,
                            actionHash := some pending.actionHash }

/-- `reject_pending`: an approver declines, or the requester cancels. -/
def rejectPending (env : Env) (approver : Principal) (pendingId : Uuid) (reason : Option String)
    (ctx : ToolContext) : Tx ToolOutcome := do
  match ← Tx.read fun db => db.pendingAction pendingId with
  | none => return { status := .denied, tool := "", message := "Nothing to reject." }
  | some pending =>
      if pending.status ≠ .pending then
        return { status := .denied, tool := pending.tool, message := "Nothing to reject." }
      else if (approver.has pending.approvePermission ||
          approver.userId == pending.requesterId) = false then
        return { status := .denied, tool := pending.tool,
                 message := "You may not decide this action." }
      else do
        Db.updatePending pendingId fun p =>
          { p with
            status := .rejected, approverId := some approver.userId,
            decidedAt := some env.dbNow }
        audited host env
          { requestId := ctx.requestId, actorId := approver.userId, actorRole := approver.role,
            event := "approval", tool := some pending.tool, decision := .deny,
            reason := some (if filled reason then reason.getD "" else "rejected"),
            pendingActionId := some pending.id, actionHash := some pending.actionHash }
          { status := .denied, tool := pending.tool, message := "Action rejected." }

end OpsAssist
