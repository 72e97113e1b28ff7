/-
# OpsAssist.Tools.Calls -- what a tool call can do to the database

One lemma for each operation says everything a call that returns can have done:
`runTool_effect`, `approvePending_effect` and `rejectPending_effect`.  The
invariants of runs and the audit properties are derived from these and never
unfold the operations again.

`call_audited_iff`: which calls are atomic and append exactly one record of their
decision.  Poles: `refused_rejection_unaudited`, a rejection that decides nothing
leaves no record; `oversized_float_breaks_log`, a refused call leaves a record that
does not verify.
-/
import OpsAssist.Policy.AuditRecord
import OpsAssist.Tools.Executor

namespace OpsAssist

set_option autoImplicit false

open Theory

variable {host : Host}

/-! ## Handlers -/

/-- The model the arguments are of. -/
def ToolArgs.model : ToolArgs → ArgsModel
  | .searchInternalDocs .. => .searchInternalDocs
  | .getServerStatus .. => .getServerStatus
  | .createSupportTicket .. => .createSupportTicket
  | .getSupportTicket .. => .getSupportTicket
  | .createVpnProfile .. => .createVpnProfile

/-- What a handler that succeeds leaves: nothing changed, one ticket more, or one
profile more, which `create_vpn_profile` writes and nothing else does. -/
inductive Handled.Effect (principal : Principal) (args : ToolArgs) (db : Db) :
    Value → Db → Prop where
  | unchanged {result : Value} (model : args.model ≠ .createVpnProfile) :
      Handled.Effect principal args db result db
  | ticket {result : Value} (t : Ticket) (model : args.model ≠ .createVpnProfile) :
      Handled.Effect principal args db result { db with tickets := db.tickets ++ [t] }
  | profile {result : Value} (p : VpnProfile) (model : args.model = .createVpnProfile)
      (fits : db.profileOk p = true) (requestedBy : p.requestedBy = principal.userId)
      (named : textMember "profile_id" result = some p.id) :
      Handled.Effect principal args db result { db with vpnProfiles := db.vpnProfiles ++ [p] }

theorem handle_effect {env : Env} {principal : Principal} {args : ToolArgs} {ctx : ToolContext}
    {db db' : Db} {result : Value}
    (done : handle host env principal args ctx db = .ok (.ok result, db')) :
    Handled.Effect principal args db result db' := by
  cases args with
  | searchInternalDocs query department =>
      simp only [handle, searchInternalDocs] at done
      cases found : env.retrieved with
      | none =>
          rw [found] at done
          exact absurd done Tx.raise_ne_ok
      | some chunks =>
          rw [found] at done
          obtain ⟨-, rfl⟩ := Prod.mk.inj (Tx.pure_eq_ok.mp done)
          exact .unchanged nofun
  | getServerStatus serverId =>
      simp only [handle, getServerStatus, Tx.read_bind] at done
      cases found : db.server serverId with
      | none =>
          rw [found] at done
          cases Tx.pure_eq_ok.mp done
      | some server =>
          rw [found] at done
          obtain ⟨-, rfl⟩ := Prod.mk.inj (Tx.pure_eq_ok.mp done)
          exact .unchanged nofun
  | createSupportTicket title severity details =>
      simp only [handle, createSupportTicket, Tx.read_bind] at done
      generalize db.tickets.find? _ = found at done
      cases found with
      | none =>
          obtain ⟨_, mid, inserted, done⟩ := Tx.bind_eq_ok.mp done
          obtain ⟨-, rfl⟩ := Prod.mk.inj (Tx.pure_eq_ok.mp done)
          obtain ⟨-, same⟩ := Db.insertTicket_eq_ok.mp inserted
          obtain rfl := (Prod.mk.inj same).2
          exact .ticket _ nofun
      | some existing =>
          dsimp only at done
          split at done
          · obtain ⟨-, rfl⟩ := Prod.mk.inj (Tx.pure_eq_ok.mp done)
            exact .unchanged nofun
          · obtain ⟨_, mid, inserted, done⟩ := Tx.bind_eq_ok.mp done
            obtain ⟨-, rfl⟩ := Prod.mk.inj (Tx.pure_eq_ok.mp done)
            obtain ⟨-, same⟩ := Db.insertTicket_eq_ok.mp inserted
            obtain rfl := (Prod.mk.inj same).2
            exact .ticket _ nofun
  | getSupportTicket ticketId =>
      simp only [handle, getSupportTicket, Tx.read_bind] at done
      cases found : db.ticket ticketId with
      | none =>
          rw [found] at done
          cases Tx.pure_eq_ok.mp done
      | some ticket =>
          simp only [found, Tx.read_bind] at done
          split at done
          · obtain ⟨-, rfl⟩ := Prod.mk.inj (Tx.pure_eq_ok.mp done)
            exact .unchanged nofun
          · cases Tx.pure_eq_ok.mp done
  | createVpnProfile employeeId employeeName durationDays =>
      simp only [handle, createVpnProfile, Tx.read_bind] at done
      cases found : resolveEmployee host employeeId employeeName db with
      | error text =>
          rw [found] at done
          cases Tx.pure_eq_ok.mp done
      | ok employee =>
          rw [found] at done
          obtain ⟨_, mid, inserted, done⟩ := Tx.bind_eq_ok.mp done
          obtain ⟨value, rfl⟩ := Prod.mk.inj (Tx.pure_eq_ok.mp done)
          obtain rfl := Except.ok.inj value
          obtain ⟨fits, same⟩ := Db.insertProfile_eq_ok.mp inserted
          obtain rfl := (Prod.mk.inj same).2
          exact .profile _ rfl fits rfl rfl

/-- A handler that fails has changed nothing. -/
theorem handle_failure {env : Env} {principal : Principal} {args : ToolArgs} {ctx : ToolContext}
    {db db' : Db} {failure : ToolFailure}
    (done : handle host env principal args ctx db = .ok (.error failure, db')) : db' = db := by
  cases args with
  | searchInternalDocs query department =>
      simp only [handle, searchInternalDocs] at done
      cases found : env.retrieved with
      | none =>
          rw [found] at done
          exact absurd done Tx.raise_ne_ok
      | some chunks =>
          rw [found] at done
          cases Tx.pure_eq_ok.mp done
  | getServerStatus serverId =>
      simp only [handle, getServerStatus, Tx.read_bind] at done
      cases found : db.server serverId with
      | none =>
          rw [found] at done
          exact (Prod.mk.inj (Tx.pure_eq_ok.mp done)).2
      | some server =>
          rw [found] at done
          cases Tx.pure_eq_ok.mp done
  | createSupportTicket title severity details =>
      simp only [handle, createSupportTicket, Tx.read_bind] at done
      generalize db.tickets.find? _ = found at done
      cases found with
      | none =>
          obtain ⟨_, mid, -, done⟩ := Tx.bind_eq_ok.mp done
          cases Tx.pure_eq_ok.mp done
      | some existing =>
          dsimp only at done
          split at done
          · cases Tx.pure_eq_ok.mp done
          · obtain ⟨_, mid, -, done⟩ := Tx.bind_eq_ok.mp done
            cases Tx.pure_eq_ok.mp done
  | getSupportTicket ticketId =>
      simp only [handle, getSupportTicket, Tx.read_bind] at done
      cases found : db.ticket ticketId with
      | none =>
          rw [found] at done
          exact (Prod.mk.inj (Tx.pure_eq_ok.mp done)).2
      | some ticket =>
          simp only [found, Tx.read_bind] at done
          split at done
          · cases Tx.pure_eq_ok.mp done
          · exact (Prod.mk.inj (Tx.pure_eq_ok.mp done)).2
  | createVpnProfile employeeId employeeName durationDays =>
      simp only [handle, createVpnProfile, Tx.read_bind] at done
      cases found : resolveEmployee host employeeId employeeName db with
      | error text =>
          rw [found] at done
          exact (Prod.mk.inj (Tx.pure_eq_ok.mp done)).2
      | ok employee =>
          rw [found] at done
          obtain ⟨_, mid, -, done⟩ := Tx.bind_eq_ok.mp done
          cases Tx.pure_eq_ok.mp done

/-! ## Audit records -/

/-- One record more, with this actor and decision, and nothing else changed. -/
def Recorded (actor : String) (decision : Decision) (db db' : Db) : Prop :=
  ∃ row : AuditLog, row.actorId = actor ∧ row.decision = decision ∧
    db' = { db with auditLog := db.auditLog ++ [row] }

theorem audited_ok {env : Env} {entry : AuditEntry} {outcome : ToolOutcome} {db : Db}
    {r : ToolOutcome × Db} (done : audited host env entry outcome db = .ok r) :
    r.1 = outcome ∧ Recorded entry.actorId entry.decision db r.2 := by
  unfold audited at done
  dsimp only at done
  cases appended : Audit.append host (Datetime.ofInstant env.dbNow (host.zone env.dbNow))
      env.auditId entry db.auditLog with
  | none =>
      rw [appended] at done
      cases done
  | some row =>
      rw [appended] at done
      obtain rfl := Except.ok.inj done
      obtain ⟨written, -⟩ := append_spec appended
      exact ⟨rfl, row, written.actorId, written.decision, rfl⟩

theorem stored_ok {v : Value} {db : Db} {r : Jsonb × Db} (done : stored v db = .ok r) :
    Jsonb.store v = some r.1 ∧ r.2 = db := by
  unfold stored at done
  cases kept : Jsonb.store v with
  | none =>
      rw [kept] at done
      cases done
  | some column =>
      rw [kept] at done
      rw [← Except.ok.inj done]
      exact ⟨rfl, rfl⟩

/-! ## Calls -/

/-- The decision a record gives for a status: executed for ok, pending for pending,
error or deny otherwise. -/
def Decision.Answers (decision : Decision) : Status → Prop
  | .ok => decision = .executed
  | .pending => decision = .pending
  | .denied | .error => decision = .deny ∨ decision = .error

/-- What `runTool` can have done when it returns. -/
inductive RunTool.Effect (host : Host) (env : Env) (principal : Principal) (tool : String)
    (rawArgs : Value) (db : Db) (outcome : ToolOutcome) (db' : Db) : Prop where
  | refused (decision : Decision) (status : outcome.status = .denied ∨ outcome.status = .error)
      (decided : decision.Answers outcome.status)
      (recorded : Recorded principal.userId decision db db')
  | proposed (spec : ToolSpec) (args : ToolArgs) (p : PendingAction)
      (known : findTool tool = some spec) (sensitive : spec.sensitive = true)
      (validated : spec.argsModel.validate host rawArgs = .ok args)
      (allowed : authorize principal spec = none) (fits : db.pendingOk p = true) (id : p.id = env.uuid)
      (named : p.tool = tool) (requester : p.requesterId = principal.userId)
      (undecided : p.status = .pending) (status : outcome.status = .pending)
      (proposal : outcome.pendingActionId = some p.id)
      (arguments : Jsonb.store args.dump = some p.arguments)
      (hashed : p.actionHash = actionHash host tool args.dump principal.userId)
      (recorded : Recorded principal.userId .pending
        { db with pendingActions := db.pendingActions ++ [p] } db')
  | executed (spec : ToolSpec) (args : ToolArgs) (result : Value) (mid : Db)
      (known : findTool tool = some spec) (harmless : spec.sensitive = false)
      (validated : spec.argsModel.validate host rawArgs = .ok args)
      (handled : Handled.Effect principal args db result mid)
      (status : outcome.status = .ok)
      (recorded : Recorded principal.userId .executed mid db')

theorem runTool_effect {env : Env} {principal : Principal} {tool : String} {rawArgs : Value}
    {ctx : ToolContext} {db db' : Db} {outcome : ToolOutcome}
    (done : runTool host env principal tool rawArgs ctx db = .ok (outcome, db')) :
    RunTool.Effect host env principal tool rawArgs db outcome db' := by
  unfold runTool at done
  cases known : findTool tool with
  | none =>
      simp only [known] at done
      obtain ⟨rfl, recorded⟩ := audited_ok done
      exact .refused .deny (.inl rfl) (.inl rfl) recorded
  | some spec =>
  cases validated : spec.argsModel.validate host rawArgs with
  | error errors =>
      simp only [known, validated] at done
      obtain ⟨rfl, recorded⟩ := audited_ok done
      exact .refused .deny (.inr rfl) (.inl rfl) recorded
  | ok args =>
  cases allowed : authorize principal spec with
  | some denial =>
      simp only [known, validated, allowed] at done
      obtain ⟨rfl, recorded⟩ := audited_ok done
      exact .refused .deny (.inl rfl) (.inl rfl) recorded
  | none =>
  simp only [known, validated, allowed] at done
  cases sensitive : spec.sensitive with
  | true =>
      rw [if_pos sensitive] at done
      obtain ⟨column, mid, kept, rest⟩ := Tx.bind_eq_ok.mp done
      obtain ⟨column_eq, same⟩ := stored_ok kept
      obtain rfl : mid = db := same
      obtain ⟨_, after, inserted, last⟩ := Tx.bind_eq_ok.mp rest
      obtain ⟨fits, same⟩ := Db.insertPending_eq_ok.mp inserted
      obtain rfl := (Prod.mk.inj same).2
      obtain ⟨rfl, recorded⟩ := audited_ok last
      exact .proposed spec args _ known sensitive validated allowed fits rfl rfl rfl rfl rfl rfl
        column_eq rfl recorded
  | false =>
      rw [if_neg (by rw [sensitive]; exact Bool.false_ne_true)] at done
      obtain ⟨handled, mid, ran, last⟩ := Tx.bind_eq_ok.mp done
      cases handled with
      | error failure =>
          obtain rfl := handle_failure ran
          cases failure with
          | denied text =>
              obtain ⟨rfl, recorded⟩ := audited_ok last
              exact .refused .deny (.inl rfl) (.inl rfl) recorded
          | error text =>
              obtain ⟨rfl, recorded⟩ := audited_ok last
              exact .refused .error (.inr rfl) (.inr rfl) recorded
      | ok result =>
          obtain ⟨rfl, recorded⟩ := audited_ok last
          exact .executed spec args result mid known sensitive validated
            (handle_effect ran) rfl recorded

/-! ## Executing a pending action -/

/-- A validation that succeeds gives arguments of its own model. -/
theorem validate_model {model : ArgsModel} {raw : Value} {args : ToolArgs}
    (validated : model.validate host raw = .ok args) : args.model = model := by
  unfold ArgsModel.validate at validated
  split at validated
  · rename_i members _
    cases model <;> simp only [ArgsModel.fields] at validated
    case createVpnProfile =>
      generalize both _ _ = checked at validated
      cases checked with
      | error errors => cases validated
      | ok parts =>
          simp only [bind, Except.bind] at validated
          split at validated
          · cases validated
          · rw [← Except.ok.inj validated]
            rfl
    all_goals
      generalize both _ _ = checked at validated
      cases checked with
      | error errors => cases validated
      | ok parts =>
          rw [← Except.ok.inj validated]
          rfl
  · cases validated

theorem findTool_name {tool : String} {spec : ToolSpec} (known : findTool tool = some spec) :
    spec.name = tool := by
  simpa using List.find?_some known

/-- Only `create_vpn_profile` has its argument model. -/
theorem findTool_vpn {tool : String} {spec : ToolSpec} (known : findTool tool = some spec) :
    spec.argsModel = .createVpnProfile ↔ tool = "create_vpn_profile" := by
  have member : spec ∈ TOOLS := List.mem_of_find?_eq_some known
  rw [← findTool_name known]
  simp only [TOOLS, List.mem_cons, List.not_mem_nil, or_false] at member
  rcases member with rfl | rfl | rfl | rfl | rfl <;> decide

/-- Only `create_vpn_profile` is sensitive. -/
theorem findTool_sensitive {tool : String} {spec : ToolSpec} (known : findTool tool = some spec) :
    spec.sensitive = true ↔ spec.argsModel = .createVpnProfile := by
  have member : spec ∈ TOOLS := List.mem_of_find?_eq_some known
  simp only [TOOLS, List.mem_cons, List.not_mem_nil, or_false] at member
  rcases member with rfl | rfl | rfl | rfl | rfl <;> decide

/-- The tables an executed action leaves: one profile more, with this requester,
approver and action, for `create_vpn_profile`; for any other tool the profiles are
as before. -/
inductive Executed (requester approver tool : String) (action : Uuid) (db : Db) : Db → Prop where
  | profile (p : VpnProfile) (named : tool = "create_vpn_profile")
      (requestedBy : p.requestedBy = requester) (approvedBy : p.approvedBy = approver)
      (forAction : p.pendingActionId = action) :
      Executed requester approver tool action db { db with vpnProfiles := db.vpnProfiles ++ [p] }
  | unchanged (named : tool ≠ "create_vpn_profile") :
      Executed requester approver tool action db db
  | ticket (t : Ticket) (named : tool ≠ "create_vpn_profile") :
      Executed requester approver tool action db { db with tickets := db.tickets ++ [t] }

/-- Recording the approver changes the profile just written and no other: its id is
new. -/
theorem approveProfile_append {approver : String} {action : Uuid} {rows : List VpnProfile}
    {p : VpnProfile} (fresh : ∀ other ∈ rows, other.id ≠ p.id) :
    Db.approveProfile p.id approver action (rows ++ [p]) =
      rows ++ [{ p with approvedBy := approver, pendingActionId := action }] := by
  unfold Db.approveProfile
  rw [List.map_append, List.map_singleton, if_pos rfl,
    List.map_congr_left fun other mem => if_neg (fresh other mem), List.map_id']

theorem recordApprover_executed {requester : Principal} {approver tool : String} {spec : ToolSpec}
    {action : Uuid} {raw result : Value} {args : ToolArgs} {db mid : Db} {r : Unit × Db}
    (known : findTool tool = some spec) (validated : spec.argsModel.validate host raw = .ok args)
    (handled : Handled.Effect requester args db result mid)
    (done : recordApprover tool result approver action mid = .ok r) :
    Executed requester.userId approver tool action db r.2 := by
  have model := validate_model validated
  unfold recordApprover at done
  cases handled with
  | unchanged other =>
      rw [model, ne_eq, findTool_vpn known] at other
      rw [if_neg other] at done
      obtain rfl := Tx.pure_eq_ok.mp done
      exact .unchanged other
  | ticket t other =>
      rw [model, ne_eq, findTool_vpn known] at other
      rw [if_neg other] at done
      obtain rfl := Tx.pure_eq_ok.mp done
      exact .ticket t other
  | profile p vpn fits requestedBy named =>
      rw [model, findTool_vpn known] at vpn
      rw [if_pos vpn, named] at done
      simp only [Tx.read_bind] at done
      have fresh := Db.profileOk_fresh fits
      have found : (db.vpnProfiles ++ [p]).find? (fun other => other.id == p.id) = some p := by
        rw [List.find?_append, List.find?_eq_none.mpr (by simpa using fresh)]
        simp
      rw [found] at done
      have same := Db.updateProfile_ok done
      rw [same]
      dsimp only
      rw [approveProfile_append fresh]
      exact .profile _ vpn requestedBy rfl rfl

/-! ## Decisions on pending actions -/

/-- What it takes to execute a pending action: another person than the requester, who
may approve it and confirmed it exactly and in time, for a requester who is active and
still authorized. -/
structure Approves (db : Db) (now : Instant) (approver : Principal) (confirmHash : String)
    (p : PendingAction) (requester : Principal) (spec : ToolSpec) : Prop where
  undecided : p.status = .pending
  inTime : now ≤ p.expiresAt
  permitted : approver.has p.approvePermission = true
  different : approver.userId ≠ p.requesterId
  confirmed : confirmHash = p.actionHash
  active : principalOf db p.requesterId = some requester
  known : findTool p.tool = some spec
  authorized : authorize requester spec = none

/-- The employee the arguments name, if they name one, is known. -/
def ToolArgs.Resolves (host : Host) (db : Db) : ToolArgs → Prop
  | .createVpnProfile employeeId employeeName _ =>
      ∃ employee, resolveEmployee host employeeId employeeName db = .ok employee
  | _ => True

/-- The stored arguments of an action still validate and name a known employee. -/
def Feasible (host : Host) (db : Db) (p : PendingAction) (spec : ToolSpec) : Prop :=
  ∃ args, spec.argsModel.validate host p.arguments.read = .ok args ∧ args.Resolves host db

theorem handle_resolves {env : Env} {principal : Principal} {args : ToolArgs} {ctx : ToolContext}
    {db db' : Db} {result : Value}
    (done : handle host env principal args ctx db = .ok (.ok result, db')) :
    args.Resolves host db := by
  cases args with
  | createVpnProfile employeeId employeeName durationDays =>
      simp only [handle, createVpnProfile, Tx.read_bind] at done
      cases found : resolveEmployee host employeeId employeeName db with
      | error text =>
          rw [found] at done
          cases Tx.pure_eq_ok.mp done
      | ok employee => exact ⟨employee, found⟩
  | _ => trivial

/-- A row closed without being executed. -/
def PendingAction.close (status : PendingStatus) (approverId : Option String) (now : Instant)
    (p : PendingAction) : PendingAction :=
  { p with status, approverId := approverId.orElse fun _ => p.approverId, decidedAt := some now }

/-- The row of an executed action. -/
def PendingAction.execute (approver : String) (column : Jsonb) (now : Instant) (p : PendingAction) :
    PendingAction :=
  { p with
    status := .executed, approverId := some approver, result := some column,
    decidedAt := some now, executedAt := some now }

/-- What `approvePending` can have done when it returns. -/
inductive ApprovePending.Effect (host : Host) (env : Env) (approver : Principal)
    (pendingId : Uuid) (confirmHash : String) (db : Db) (outcome : ToolOutcome) (db' : Db) : Prop where
  | refused (status : outcome.status = .denied) (recorded : Recorded approver.userId .deny db db')
  | closed (p : PendingAction) (found : db.pendingAction pendingId = some p)
      (undecided : p.status = .pending) (closing : PendingStatus)
      (unexecuted : closing ≠ .pending ∧ closing ≠ .executed) (decision : Decision)
      (status : outcome.status = .denied ∨ outcome.status = .error)
      (answers : decision.Answers outcome.status)
      (recorded : Recorded approver.userId decision
        { db with
          pendingActions := Db.changePending pendingId (PendingAction.close closing none env.dbNow)
            db.pendingActions } db')
  | executed (p : PendingAction) (found : db.pendingAction pendingId = some p)
      (requester : Principal) (spec : ToolSpec)
      (approves : Approves db env.now approver confirmHash p requester spec)
      (feasible : Feasible host db p spec) (mid : Db)
      (executed : Executed p.requesterId approver.userId p.tool p.id db mid) (column : Jsonb)
      (status : outcome.status = .ok)
      (recorded : Recorded approver.userId .executed
        { mid with
          pendingActions := Db.changePending pendingId
            (PendingAction.execute approver.userId column env.dbNow) mid.pendingActions } db')

theorem principalOf_userId {db : Db} {userId : String} {principal : Principal}
    (active : principalOf db userId = some principal) : principal.userId = userId := by
  unfold principalOf at active
  cases found : db.user userId with
  | none =>
      rw [found] at active
      cases active
  | some user =>
      simp only [found] at active
      split at active
      · rw [← Option.some.inj active]
        unfold Db.user at found
        simpa using List.find?_some found
      · cases active

theorem approvePending_effect {env : Env} {approver : Principal} {pendingId : Uuid}
    {confirmHash : String} {ctx : ToolContext} {db db' : Db} {outcome : ToolOutcome}
    (done : approvePending host env approver pendingId confirmHash ctx db = .ok (outcome, db')) :
    ApprovePending.Effect host env approver pendingId confirmHash db outcome db' := by
  unfold approvePending at done
  simp only [Tx.read_bind] at done
  cases found : db.pendingAction pendingId with
  | none =>
      simp only [found] at done
      obtain ⟨rfl, recorded⟩ := audited_ok done
      exact .refused rfl recorded
  | some p =>
  simp only [found] at done
  by_cases undecided : p.status = .pending
  swap
  · rw [if_pos undecided] at done
    obtain ⟨rfl, recorded⟩ := audited_ok done
    exact .refused rfl recorded
  rw [if_neg (not_not.mpr undecided)] at done
  by_cases late : p.expiresAt < env.now
  · rw [if_pos late] at done
    obtain ⟨_, mid, updated, last⟩ := Tx.bind_eq_ok.mp done
    obtain rfl := (Prod.mk.inj (Db.updatePending_ok updated)).2
    obtain ⟨rfl, recorded⟩ := audited_ok last
    exact .closed p found undecided .expired (by decide) .deny (.inl rfl) (.inl rfl) recorded
  rw [if_neg late] at done
  by_cases permitted : approver.has p.approvePermission = false
  · rw [if_pos permitted] at done
    obtain ⟨rfl, recorded⟩ := audited_ok done
    exact .refused rfl recorded
  rw [if_neg permitted] at done
  by_cases own : approver.userId = p.requesterId
  · rw [if_pos own] at done
    obtain ⟨rfl, recorded⟩ := audited_ok done
    exact .refused rfl recorded
  rw [if_neg own] at done
  by_cases confirmed : confirmHash = p.actionHash
  swap
  · rw [if_pos confirmed] at done
    obtain ⟨rfl, recorded⟩ := audited_ok done
    exact .refused rfl recorded
  rw [if_neg (not_not.mpr confirmed)] at done
  simp only [Tx.read_bind] at done
  cases known : findTool p.tool with
  | none =>
      simp only [known] at done
      exact absurd done Tx.raise_ne_ok
  | some spec =>
  simp only [known] at done
  cases authorized : (principalOf db p.requesterId).filter
      (fun r => (authorize r spec).isNone) with
  | none =>
      simp only [authorized] at done
      obtain ⟨_, mid, updated, last⟩ := Tx.bind_eq_ok.mp done
      obtain rfl := (Prod.mk.inj (Db.updatePending_ok updated)).2
      obtain ⟨rfl, recorded⟩ := audited_ok last
      exact .closed p found undecided .rejected (by decide) .deny (.inl rfl) (.inl rfl) recorded
  | some requester =>
  simp only [authorized] at done
  obtain ⟨active, holds⟩ := Option.filter_eq_some_iff.mp authorized
  have approves : Approves db env.now approver confirmHash p requester spec :=
    { undecided, inTime := not_lt.mp late, permitted := eq_true_of_ne_false permitted,
      different := own, confirmed, active, known,
      authorized := Option.isNone_iff_eq_none.mp holds }
  cases validated : spec.argsModel.validate host p.arguments.read with
  | error errors =>
      simp only [validated] at done
      exact absurd done Tx.raise_ne_ok
  | ok args =>
  simp only [validated] at done
  obtain ⟨handled, mid, ran, rest⟩ := Tx.bind_eq_ok.mp done
  cases handled with
  | error failure =>
      obtain rfl := handle_failure ran
      cases failure with
      | denied text => exact absurd rest Tx.raise_ne_ok
      | error text =>
          obtain ⟨_, after, updated, last⟩ := Tx.bind_eq_ok.mp rest
          obtain rfl := (Prod.mk.inj (Db.updatePending_ok updated)).2
          obtain ⟨rfl, recorded⟩ := audited_ok last
          exact .closed p found undecided .failed (by decide) .error (.inr rfl) (.inr rfl) recorded
  | ok result =>
      obtain ⟨_, profiles, approved, afterProfile⟩ := Tx.bind_eq_ok.mp rest
      have executed := recordApprover_executed known validated (handle_effect ran) approved
      rw [principalOf_userId active] at executed
      obtain ⟨column, same, kept, afterStore⟩ := Tx.bind_eq_ok.mp afterProfile
      obtain rfl : same = profiles := (stored_ok kept).2
      obtain ⟨_, after, updated, last⟩ := Tx.bind_eq_ok.mp afterStore
      obtain rfl := (Prod.mk.inj (Db.updatePending_ok updated)).2
      obtain ⟨rfl, recorded⟩ := audited_ok last
      exact .executed p found requester spec approves ⟨args, validated, handle_resolves ran⟩ _
        executed column rfl recorded

/-- The row may be rejected: it is undecided, by someone who may approve it or who
requested it. -/
def Rejects (approver : Principal) (p : PendingAction) : Prop :=
  p.status = .pending ∧
    (approver.has p.approvePermission || approver.userId == p.requesterId) = true

/-- What `rejectPending` can have done when it returns. -/
inductive RejectPending.Effect (env : Env) (approver : Principal) (pendingId : Uuid) (db : Db)
    (outcome : ToolOutcome) (db' : Db) : Prop where
  | nothing (refused : ∀ p, db.pendingAction pendingId = some p → ¬Rejects approver p)
      (status : outcome.status = .denied) (message : outcome.message ≠ "Action rejected.")
      (unchanged : db' = db)
  | rejected (p : PendingAction) (found : db.pendingAction pendingId = some p)
      (rejects : Rejects approver p) (status : outcome.status = .denied)
      (recorded : Recorded approver.userId .deny
        { db with
          pendingActions := Db.changePending pendingId
            (PendingAction.close .rejected (some approver.userId) env.dbNow)
            db.pendingActions } db')

theorem rejectPending_effect {env : Env} {approver : Principal} {pendingId : Uuid}
    {reason : Option String} {ctx : ToolContext} {db db' : Db} {outcome : ToolOutcome}
    (done : rejectPending host env approver pendingId reason ctx db = .ok (outcome, db')) :
    RejectPending.Effect env approver pendingId db outcome db' := by
  unfold rejectPending at done
  simp only [Tx.read_bind] at done
  cases found : db.pendingAction pendingId with
  | none =>
      simp only [found] at done
      obtain ⟨rfl, rfl⟩ := Prod.mk.inj (Tx.pure_eq_ok.mp done)
      exact .nothing (by simp [found]) rfl (by decide) rfl
  | some p =>
  simp only [found] at done
  by_cases undecided : p.status = .pending
  swap
  · rw [if_pos undecided] at done
    obtain ⟨rfl, rfl⟩ := Prod.mk.inj (Tx.pure_eq_ok.mp done)
    exact .nothing (by simp [found, Rejects, undecided]) rfl
      (show "Nothing to reject." ≠ "Action rejected." by decide) rfl
  rw [if_neg (not_not.mpr undecided)] at done
  by_cases mayNot : (approver.has p.approvePermission || approver.userId == p.requesterId) = false
  · rw [if_pos mayNot] at done
    obtain ⟨rfl, rfl⟩ := Prod.mk.inj (Tx.pure_eq_ok.mp done)
    refine .nothing (fun q at_ rejects => ?_) rfl
      (show "You may not decide this action." ≠ "Action rejected." by decide) rfl
    obtain rfl := Option.some.inj (found.symm.trans at_)
    exact absurd rejects.2 (by rw [mayNot]; exact Bool.false_ne_true)
  rw [if_neg mayNot] at done
  obtain ⟨_, mid, updated, last⟩ := Tx.bind_eq_ok.mp done
  obtain rfl := (Prod.mk.inj (Db.updatePending_ok updated)).2
  obtain ⟨rfl, recorded⟩ := audited_ok last
  exact .rejected p found ⟨undecided, eq_true_of_ne_false mayNot⟩ rfl recorded

/-! ## Transactions of calls -/

/-- `session.begin()`: commit what the body leaves, or roll back and raise. -/
def Db.transact {α : Type} (body : Tx α) (db : Db) : Except Raised α × Db :=
  match body db with
  | .error raised => (.error raised, db)
  | .ok (a, db') => (.ok a, db')

inductive Operation where
  | runTool (tool : String) (rawArgs : Value)
  | approvePending (pendingId : Uuid) (confirmHash : String)
  | rejectPending (pendingId : Uuid) (reason : Option String)

/-- One call of the executor. -/
structure Call where
  env : Env
  caller : Principal
  ctx : ToolContext
  operation : Operation

def Call.body (host : Host) (call : Call) : Tx ToolOutcome :=
  match call.operation with
  | .runTool tool rawArgs => OpsAssist.runTool host call.env call.caller tool rawArgs call.ctx
  | .approvePending pendingId confirmHash =>
      OpsAssist.approvePending host call.env call.caller pendingId confirmHash call.ctx
  | .rejectPending pendingId reason =>
      OpsAssist.rejectPending host call.env call.caller pendingId reason call.ctx

/-- What a call returns or raises, and the database after it. -/
def Call.run (host : Host) (call : Call) (db : Db) : Except Raised ToolOutcome × Db :=
  db.transact (call.body host)

theorem Call.run_ok {call : Call} {db : Db} {outcome : ToolOutcome}
    (returned : (call.run host db).1 = .ok outcome) :
    call.body host db = .ok (outcome, (call.run host db).2) := by
  unfold run Db.transact at *
  cases ran : call.body host db with
  | error raised =>
      rw [ran] at returned
      cases returned
  | ok r =>
      rw [ran] at returned
      obtain rfl := Except.ok.inj returned
      rfl

theorem Call.run_error {call : Call} {db : Db} {raised : Raised}
    (raises : (call.run host db).1 = .error raised) : (call.run host db).2 = db := by
  unfold run Db.transact at *
  cases ran : call.body host db with
  | error raised => rfl
  | ok r =>
      rw [ran] at raises
      cases raises

/-! ## Every decision is on record -/

/-- What an audited and atomic call does: when it returns, exactly one record more,
whose actor is the caller and whose decision answers the outcome; when it raises,
nothing. -/
def Call.Audited (call : Call) (db : Db) : Except Raised ToolOutcome × Db → Prop
  | (.ok outcome, db') => ∃ row : AuditLog, db'.auditLog = db.auditLog ++ [row] ∧
      row.actorId = call.caller.userId ∧ row.decision.Answers outcome.status
  | (.error _, db') => db' = db

/-- The call is no rejection that decides nothing. -/
def Call.Decides (call : Call) (db : Db) : Prop :=
  ∀ pendingId reason, call.operation = .rejectPending pendingId reason →
    ∃ p, db.pendingAction pendingId = some p ∧ Rejects call.caller p

theorem Recorded.auditLog {actor : String} {decision : Decision} {mid db' : Db}
    {rows : List AuditLog} (recorded : Recorded actor decision mid db')
    (log : mid.auditLog = rows) :
    ∃ row : AuditLog, db'.auditLog = rows ++ [row] ∧ row.actorId = actor ∧
      row.decision = decision := by
  obtain ⟨row, actorId, decided, rfl⟩ := recorded
  exact ⟨row, by rw [← log], actorId, decided⟩

theorem Handled.Effect.auditLog {principal : Principal} {args : ToolArgs} {db db' : Db}
    {result : Value} (effect : Handled.Effect principal args db result db') :
    db'.auditLog = db.auditLog := by
  cases effect <;> rfl

theorem Executed.auditLog {requester approver tool : String} {action : Uuid} {db db' : Db}
    (executed : Executed requester approver tool action db db') : db'.auditLog = db.auditLog := by
  cases executed <;> rfl

theorem Executed.pendingActions {requester approver tool : String} {action : Uuid} {db db' : Db}
    (executed : Executed requester approver tool action db db') :
    db'.pendingActions = db.pendingActions := by
  cases executed <;> rfl

theorem runTool_audited {env : Env} {principal : Principal} {tool : String} {rawArgs : Value}
    {db db' : Db} {outcome : ToolOutcome}
    (effect : RunTool.Effect host env principal tool rawArgs db outcome db') :
    ∃ row : AuditLog, db'.auditLog = db.auditLog ++ [row] ∧ row.actorId = principal.userId ∧
      row.decision.Answers outcome.status := by
  cases effect with
  | refused decision status decided recorded =>
      obtain ⟨row, log, actor, rfl⟩ := recorded.auditLog rfl
      exact ⟨row, log, actor, decided⟩
  | proposed spec args p known sensitive validated allowed fits id named requester undecided status proposal arguments hashed recorded =>
      obtain ⟨row, log, actor, decided⟩ := recorded.auditLog rfl
      exact ⟨row, log, actor, by rw [status]; exact decided⟩
  | executed spec args result mid known harmless validated handled status recorded =>
      obtain ⟨row, log, actor, decided⟩ := recorded.auditLog handled.auditLog
      exact ⟨row, log, actor, by rw [status]; exact decided⟩

theorem approvePending_audited {env : Env} {approver : Principal} {pendingId : Uuid}
    {confirmHash : String} {db db' : Db} {outcome : ToolOutcome}
    (effect : ApprovePending.Effect host env approver pendingId confirmHash db outcome db') :
    ∃ row : AuditLog, db'.auditLog = db.auditLog ++ [row] ∧ row.actorId = approver.userId ∧
      row.decision.Answers outcome.status := by
  cases effect with
  | refused status recorded =>
      obtain ⟨row, log, actor, decided⟩ := recorded.auditLog rfl
      exact ⟨row, log, actor, by rw [status]; exact .inl decided⟩
  | closed p found undecided closing unexecuted decision status answers recorded =>
      obtain ⟨row, log, actor, rfl⟩ := recorded.auditLog rfl
      exact ⟨row, log, actor, answers⟩
  | executed p found requester spec approves feasible mid executed column status recorded =>
      obtain ⟨row, log, actor, decided⟩ := recorded.auditLog executed.auditLog
      exact ⟨row, log, actor, by rw [status]; exact decided⟩

/-- A rejection that may not decide returns and changes nothing. -/
theorem rejectPending_refused (host : Host) (env : Env) {approver : Principal} {pendingId : Uuid}
    (reason : Option String) (ctx : ToolContext) {db : Db}
    (refused : ¬∃ p, db.pendingAction pendingId = some p ∧ Rejects approver p) :
    ∃ outcome, rejectPending host env approver pendingId reason ctx db = .ok (outcome, db) := by
  unfold rejectPending
  simp only [Tx.read_bind]
  cases found : db.pendingAction pendingId with
  | none => exact ⟨_, rfl⟩
  | some p =>
      simp only
      by_cases undecided : p.status = .pending
      · have mayNot : (approver.has p.approvePermission || approver.userId == p.requesterId) =
            false :=
          eq_false_of_ne_true fun may => refused ⟨p, found, undecided, may⟩
        rw [if_neg (not_not.mpr undecided), if_pos mayNot]
        exact ⟨_, rfl⟩
      · rw [if_pos undecided]
        exact ⟨_, rfl⟩

/-- **A call is atomic and on record, in any state, exactly when it is no rejection
that decides nothing.** -/
theorem call_audited_iff (host : Host) (call : Call) (db : Db) :
    call.Audited db (call.run host db) ↔ call.Decides db := by
  constructor
  · intro audited pendingId reason operation
    by_contra refused
    obtain ⟨outcome, done⟩ := rejectPending_refused host call.env reason call.ctx refused
    have ran : call.run host db = (.ok outcome, db) := by
      unfold Call.run Db.transact Call.body
      rw [operation]
      simp only [done]
    rw [ran] at audited
    obtain ⟨row, log, -⟩ := audited
    exact absurd (congrArg List.length log) (by simp)
  · intro decides
    cases returned : (call.run host db).1 with
    | error raised =>
        rw [← Prod.mk.eta (p := call.run host db), returned]
        exact Call.run_error returned
    | ok outcome =>
        rw [← Prod.mk.eta (p := call.run host db), returned]
        have done := Call.run_ok returned
        unfold Call.body at done
        cases operation : call.operation with
        | runTool tool rawArgs =>
            rw [operation] at done
            exact runTool_audited (runTool_effect done)
        | approvePending pendingId confirmHash =>
            rw [operation] at done
            exact approvePending_audited (approvePending_effect done)
        | rejectPending pendingId reason =>
            rw [operation] at done
            cases rejectPending_effect done with
            | nothing refused status message unchanged =>
                obtain ⟨p, found, rejects⟩ := decides pendingId reason operation
                exact absurd rejects (refused p found)
            | rejected p found rejects status recorded =>
                obtain ⟨row, log, actor, decided⟩ := recorded.auditLog rfl
                exact ⟨row, log, actor, by rw [status]; exact .inl decided⟩

/-! ## Poles -/

def poleApprover : Principal :=
  { userId := "U002", name := "Rita", department := "it_ops", role := "manager",
    permissions := ["vpn:approve"] }

def emptyDb : Db :=
  { users := [], servers := [], tickets := [], vpnProfiles := [], pendingActions := [],
    auditLog := [] }

def poleEnv : Env :=
  { now := 0, dbNow := 0, auditId := 1, ticketNumber := 1, profileNumber := 1, uuid := 7 }

/-- Rejecting an action that does not exist returns, and no record says so. -/
theorem refused_rejection_unaudited :
    ¬∀ (host : Host) (call : Call) (db : Db), call.Audited db (call.run host db) := by
  intro all
  obtain ⟨row, log, -⟩ := all .plain
    { env := poleEnv, caller := poleApprover, ctx := { requestId := "req-1" },
      operation := .rejectPending 9 none } emptyDb
  exact absurd log (by simp [emptyDb])

/-- Arguments `json.loads` makes from `{"n": 1e16}`. -/
def oversizedArguments : Value :=
  .obj [("n", .num (.float (.finite ⟨false, 5000000000000000, 1075, by decide⟩)))]

/-- A refused call whose arguments hold a float that prints with an exponent is the
only record of a log that does not verify. -/
theorem oversized_float_breaks_log :
    let call : Call :=
      { env := poleEnv, caller := poleApprover, ctx := { requestId := "r1" },
        operation := .runTool "get_server_status" oversizedArguments }
    (verifyChain .plain (call.run .plain emptyDb).2.auditLog).intact = false := by
  decide +kernel

end OpsAssist
