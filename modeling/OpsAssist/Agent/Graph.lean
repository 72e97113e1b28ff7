/-
# OpsAssist.Agent.Graph -- the tool node and its replay

A turn of a conversation runs through a graph whose `tool` node calls the executor and,
when the call is a proposal, pauses until an approver decides.  A paused node is run
again from its first line when its thread is resumed, and its `interrupt` then
returns the approver's decision: `toolNode` takes that decision as an argument.

`toolNode_counts`: a run of the node adds a pending action and a pending audit record
exactly when it proposes, whether it is the first run or a replay.
-/
import OpsAssist.Tools.Calls

namespace OpsAssist

set_option autoImplicit false

open Theory

variable {host : Host}

/-- The values of a thread that its nodes read. -/
structure AgentState where
  question : String
  userId : String
  requestId : String
  conversationId : Option Uuid := none
  modelChoice : Option String := none
  tool : String := ""
  arguments : Value := .obj []

/-- The value `Command(resume=...)` carries. -/
structure Resume where
  status : String
  message : String
  data : Option Value := none

def Status.text : Status → String
  | .ok => "ok"
  | .denied => "denied"
  | .pending => "pending"
  | .error => "error"

/-- The `result` of a tool turn. -/
structure ToolResult where
  tool : String := ""
  status : String
  message : String
  data : Option Value := none
  pendingActionId : Option Uuid := none
  actionHash : Option String := none

/-- How a run of a node ends: with a result, at `interrupt`, or with an exception. -/
inductive NodeRun where
  | finished (result : ToolResult)
  | paused (summary : String) (pendingActionId : Option Uuid) (actionHash : Option String)
  | failed

/-- The call `tool_node` makes. -/
def AgentState.call (state : AgentState) (env : Env) (principal : Principal) : Call :=
  { env, caller := principal,
    ctx := { requestId := state.requestId, conversationId := state.conversationId,
             userMessage := some state.question },
    operation := .runTool state.tool state.arguments }

/-- `tool_node`, with the decision it was resumed with when this is a replay. -/
def toolNode (host : Host) (env : Env) (state : AgentState) (resumed : Option Resume) (db : Db) :
    NodeRun × Db :=
  match principalOf db state.userId with
  | none => (.finished { status := "denied", message := "unknown user" }, db)
  | some principal =>
      match (state.call env principal).run host db with
      | (.error _, db') => (.failed, db')
      | (.ok outcome, db') =>
          let payload : ToolResult :=
            { tool := outcome.tool, status := outcome.status.text, message := outcome.message,
              data := outcome.data, pendingActionId := outcome.pendingActionId,
              actionHash := outcome.actionHash }
          if outcome.status = .pending then
            match resumed with
            | none => (.paused outcome.message outcome.pendingActionId outcome.actionHash, db')
            | some decision =>
                (.finished { payload with
                  status := decision.status, message := decision.message,
                  data := decision.data }, db')
          else (.finished payload, db')

/-- The status the tool call returns in a run of the node. -/
def toolStatus (host : Host) (env : Env) (state : AgentState) (db : Db) : Option Status :=
  match principalOf db state.userId with
  | none => none
  | some principal =>
      match ((state.call env principal).run host db).1 with
      | .error _ => none
      | .ok outcome => some outcome.status

/-! ## When the node proposes -/

/-- The caller may make the sensitive call the state holds. -/
def Proposes (host : Host) (db : Db) (state : AgentState) : Prop :=
  ∃ principal spec args, principalOf db state.userId = some principal ∧
    findTool state.tool = some spec ∧ spec.sensitive = true ∧
    spec.argsModel.validate host state.arguments = .ok args ∧ authorize principal spec = none

/-- The audit records of proposals. -/
def Db.proposals (db : Db) : List AuditLog :=
  db.auditLog.filter fun row => row.decision = .pending

/-- Neither a pending action nor a record of one more. -/
structure Db.SameProposals (db db' : Db) : Prop where
  users : db'.users = db.users
  actions : db'.pendingActions.length = db.pendingActions.length
  records : db'.proposals = db.proposals

namespace Db.SameProposals

theorem refl (db : Db) : db.SameProposals db := ⟨rfl, rfl, rfl⟩

theorem trans {a b c : Db} (first : a.SameProposals b) (second : b.SameProposals c) :
    a.SameProposals c :=
  ⟨second.users.trans first.users, second.actions.trans first.actions,
    second.records.trans first.records⟩

/-- A record that is not of a proposal leaves the proposals. -/
theorem recorded {actor : String} {decision : Decision} {db mid db' : Db}
    (recorded : Recorded actor decision mid db') (other : decision ≠ .pending)
    (same : db.SameProposals mid) : db.SameProposals db' := by
  obtain ⟨row, -, decided, rfl⟩ := recorded
  refine same.trans ⟨rfl, rfl, ?_⟩
  have skipped : [row].filter (fun r => decide (r.decision = .pending)) = [] := by
    simpa [decided] using other
  unfold Db.proposals
  rw [List.filter_append, skipped, List.append_nil]

end Db.SameProposals

theorem Handled.Effect.sameProposals {principal : Principal} {args : ToolArgs} {db db' : Db}
    {result : Value} (effect : Handled.Effect principal args db result db') :
    db.SameProposals db' := by
  cases effect <;> exact ⟨rfl, rfl, rfl⟩

theorem Executed.sameProposals {requester approver tool : String} {action : Uuid} {db db' : Db}
    (executed : Executed requester approver tool action db db') : db.SameProposals db' := by
  cases executed <;> exact ⟨rfl, rfl, rfl⟩

theorem sameProposals_changePending {db : Db} (id : Uuid) (change : PendingAction → PendingAction) :
    db.SameProposals { db with pendingActions := Db.changePending id change db.pendingActions } :=
  ⟨rfl, List.length_map _, rfl⟩

theorem Decision.Answers.ne_pending {decision : Decision} {status : Status}
    (answers : decision.Answers status) (other : status ≠ .pending) : decision ≠ .pending := by
  rintro rfl
  cases status with
  | pending => exact other rfl
  | ok => cases answers
  | denied => rcases answers with same | same <;> cases same
  | error => rcases answers with same | same <;> cases same

/-- A decision on a pending action proposes nothing. -/
theorem decision_proposes_nothing {call : Call} {db : Db}
    (decision : ∀ tool rawArgs, call.operation ≠ .runTool tool rawArgs) :
    db.SameProposals (call.run host db).2 := by
  cases returned : (call.run host db).1 with
  | error raised =>
      rw [Call.run_error returned]
      exact .refl db
  | ok outcome =>
      have done := Call.run_ok returned
      unfold Call.body at done
      cases operation : call.operation with
      | runTool tool rawArgs => exact absurd operation (decision tool rawArgs)
      | approvePending pendingId confirmHash =>
          rw [operation] at done
          cases approvePending_effect done with
          | refused status recorded => exact .recorded recorded nofun (.refl db)
          | closed p found undecided closing unexecuted decision status answers recorded =>
              have other : outcome.status ≠ .pending := by
                rcases status with same | same <;> rw [same] <;> exact nofun
              exact .recorded recorded (answers.ne_pending other) (sameProposals_changePending _ _)
          | executed p found requester spec approves feasible mid executed column status recorded =>
              exact .recorded recorded nofun
                (executed.sameProposals.trans (sameProposals_changePending _ _))
      | rejectPending pendingId reason =>
          rw [operation] at done
          cases rejectPending_effect done with
          | nothing refused status message unchanged =>
              rw [unchanged]
              exact .refl db
          | rejected p found rejects status recorded =>
              exact .recorded recorded nofun (sameProposals_changePending _ _)

/-- **A tool call that returns pending adds one pending action; any other adds none.** -/
theorem runTool_counts (host : Host) {call : Call} {tool : String} {rawArgs : Value} (db : Db)
    (operation : call.operation = .runTool tool rawArgs) :
    ((∃ outcome, (call.run host db).1 = .ok outcome ∧ outcome.status = .pending) ∧
        (call.run host db).2.pendingActions.length = db.pendingActions.length + 1 ∧
        ∃ spec args, findTool tool = some spec ∧ spec.sensitive = true ∧
          spec.argsModel.validate host rawArgs = .ok args ∧ authorize call.caller spec = none) ∨
      ((∀ outcome, (call.run host db).1 = .ok outcome → outcome.status ≠ .pending) ∧
        db.SameProposals (call.run host db).2) := by
  cases returned : (call.run host db).1 with
  | error raised =>
      rw [Call.run_error returned]
      exact .inr ⟨nofun, .refl db⟩
  | ok outcome =>
      have done := Call.run_ok returned
      unfold Call.body at done
      rw [operation] at done
      cases runTool_effect done with
      | refused decision status decided recorded =>
          have other : outcome.status ≠ .pending := by
            rcases status with same | same <;> rw [same] <;> exact nofun
          refine .inr ⟨?_, .recorded recorded (decided.ne_pending other) (.refl db)⟩
          intro _ same
          rw [← Except.ok.inj same]
          exact other
      | proposed spec args p known sensitive validated allowed fits id named requester undecided
          status proposal arguments hashed recorded =>
          obtain ⟨row, -, -, after⟩ := recorded
          refine .inl ⟨⟨outcome, rfl, status⟩, ?_, spec, args, known, sensitive, validated, allowed⟩
          rw [after]
          exact List.length_append
      | executed spec args result mid known harmless validated handled status recorded =>
          refine .inr ⟨?_, .recorded recorded nofun handled.sameProposals⟩
          intro _ same
          rw [← Except.ok.inj same, status]
          exact nofun

/-- **A run of the node, first or replayed, adds a pending action exactly when its call
proposes; then its state is one that proposes.** -/
theorem toolNode_counts (host : Host) (env : Env) (state : AgentState) (resumed : Option Resume) (db : Db) :
    (toolStatus host env state db = some .pending ∧ Proposes host db state ∧
        (toolNode host env state resumed db).2.pendingActions.length =
          db.pendingActions.length + 1) ∨
      (toolStatus host env state db ≠ some .pending ∧
        db.SameProposals (toolNode host env state resumed db).2) := by
  unfold toolNode toolStatus
  cases known : principalOf db state.userId with
  | none => exact .inr ⟨nofun, .refl db⟩
  | some principal =>
      have operation : (state.call env principal).operation =
          .runTool state.tool state.arguments := rfl
      have counts := runTool_counts host db operation
      cases ran : (state.call env principal).run host db with
      | mk returned db' =>
      rw [ran] at counts
      simp only [ran]
      rcases counts with ⟨⟨outcome, here, pending⟩, added, spec, args, proposal⟩ | ⟨other, same⟩
      · obtain rfl : returned = .ok outcome := here
        refine .inl ⟨congrArg some pending, ⟨principal, spec, args, known, proposal⟩, ?_⟩
        rw [← added]
        simp only [if_pos pending]
        cases resumed <;> rfl
      · cases returned with
        | error raised => exact .inr ⟨nofun, same⟩
        | ok outcome =>
            have notPending := other outcome rfl
            refine .inr ⟨fun pending => notPending (Option.some.inj pending), ?_⟩
            simp only [if_neg notPending]
            exact same

end OpsAssist
