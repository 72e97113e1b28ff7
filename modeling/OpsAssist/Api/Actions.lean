/-
# OpsAssist.Api.Actions -- proposals, approvals and resumed conversations

A chat turn may leave its conversation's thread paused at the tool node; an approval or
a rejection that goes through resumes the thread, which runs the node again.  A
`System` is the database with the conversations and their threads; its events are chat
turns, approvals, rejections and changes of users.  A new turn on a thread starts over
and drops what was paused.

`proposals_counted`: while no decision resumes a node that would propose again, there is
one pending action for each turn whose call returned pending, and decisions propose
nothing.  Pole: `rejection_proposes_again`.
-/
import OpsAssist.Agent.Graph
import OpsAssist.Agent.Service
import OpsAssist.Conversations
import OpsAssist.Tools.Approvals

namespace OpsAssist

set_option autoImplicit false

open Theory

variable {host : Host}

/-- What `classify` decides for a turn. -/
inductive Route where
  | smallTalk
  | knowledge
  | tool (tool : String) (arguments : Value)
  | refuse

/-- A message to a conversation, or to a new one. -/
structure ChatRequest where
  conversationId : Option Uuid
  message : String
  /-- whether the catalog has the model it names, if it names one -/
  knownModel : Bool := true
  model : Option String := none

/-- The database, the conversations and, for each thread that stands at its tool node,
the state it was left in. -/
structure System where
  db : Db
  conversations : List Conversation := []
  threads : List (Uuid × AgentState) := []
  /-- whether there is an agent graph -/
  agent : Bool := true

inductive Request where
  /-- a turn, the route `classify` finds for it and the UUID of a new conversation -/
  | chat (env : Env) (principal : Principal) (requestId : String) (body : ChatRequest)
      (route : Route) (uuid : Uuid)
  /-- an approval; `replayEnv` is what a replay of the tool node takes from outside -/
  | approve (env replayEnv : Env) (principal : Principal) (requestId : String) (actionId : Uuid)
      (actionHash : String)
  | reject (env replayEnv : Env) (principal : Principal) (requestId : String) (actionId : Uuid)
      (reason : Option String)
  | users (known : List User)

namespace System

/-! ## Threads -/

def clearThread (threads : List (Uuid × AgentState)) (thread : Uuid) : List (Uuid × AgentState) :=
  threads.filter fun t => t.1 != thread

/-- The thread after a run of its tool node. -/
def leave (threads : List (Uuid × AgentState)) (thread : Uuid) (state : AgentState) :
    NodeRun → List (Uuid × AgentState)
  | .finished _ => clearThread threads thread
  | .paused .. | .failed => (thread, state) :: clearThread threads thread

/-! ## Requests -/

/-- The state a turn starts its thread with, once `classify` has run. -/
def turnState (principal : Principal) (requestId : String) (body : ChatRequest)
    (conversation : Conversation) (tool : String) (arguments : Value) : AgentState :=
  { question := body.message, userId := principal.userId, requestId,
    conversationId := some conversation.id,
    modelChoice := if body.model.isSome then body.model else conversation.modelId,
    tool, arguments }

def chat (host : Host) (env : Env) (principal : Principal) (requestId : String)
    (body : ChatRequest) (route : Route) (uuid : Uuid) (s : System) : System :=
  if body.knownModel = false then s
  else match getOrCreate s.conversations body.conversationId principal.userId body.message uuid with
    | none => s
    | some (conversation, conversations) =>
        let s := { s with conversations }
        if s.agent = false then s
        else match route with
          | .smallTalk | .knowledge | .refuse =>
              { s with threads := clearThread s.threads conversation.id }
          | .tool tool arguments =>
              let state := turnState principal requestId body conversation tool arguments
              let ran := toolNode host env state none s.db
              { s with db := ran.2, threads := leave s.threads conversation.id state ran.1 }

/-- The status of the tool call of a turn. -/
def chatStatus (host : Host) (env : Env) (principal : Principal) (requestId : String)
    (body : ChatRequest) (route : Route) (uuid : Uuid) (s : System) : Option Status :=
  if body.knownModel = false then none
  else match getOrCreate s.conversations body.conversationId principal.userId body.message uuid with
    | none => none
    | some (conversation, _) =>
        if s.agent = false then none
        else match route with
          | .smallTalk | .knowledge | .refuse => none
          | .tool tool arguments =>
              toolStatus host env
                (turnState principal requestId body conversation tool arguments) s.db

/-- `_resume_conversation` -/
def resume (host : Host) (env : Env) (pendingId : Uuid) (payload : Resume) (s : System) : System :=
  match s.db.pendingAction pendingId with
  | none => s
  | some pending =>
      match pending.conversationId with
      | none => s
      | some conversation =>
          if s.agent = false then s
          else match s.threads.lookup conversation with
            | none => s
            | some state =>
                let ran := toolNode host env state (some payload) s.db
                { s with db := ran.2, threads := leave s.threads conversation state ran.1 }

/-- What the approver is told. -/
def outcomeMessage (outcome : ToolOutcome) : String :=
  match outcome.data with
  | some data =>
      if outcome.status = .ok ∧ truthy data = true then describeToolResult outcome.tool data
      else outcome.message
  | none => outcome.message

/-- The executor's call of an approval. -/
def approval (env : Env) (principal : Principal) (requestId : String) (actionId : Uuid)
    (actionHash : String) : Call :=
  { env, caller := principal, ctx := { requestId },
    operation := .approvePending actionId actionHash }

def rejection (env : Env) (principal : Principal) (requestId : String) (actionId : Uuid)
    (reason : Option String) : Call :=
  { env, caller := principal, ctx := { requestId }, operation := .rejectPending actionId reason }

def approve (host : Host) (env replayEnv : Env) (principal : Principal) (requestId : String)
    (actionId : Uuid) (actionHash : String) (s : System) : System :=
  if actionHash.length ≠ 64 then s
  else match (approval env principal requestId actionId actionHash).run host s.db with
    | (.error _, db) => { s with db }
    | (.ok outcome, db) =>
        let s := { s with db }
        if outcome.status = .ok then
          s.resume host replayEnv actionId
            { status := "ok", message := outcomeMessage outcome, data := outcome.data }
        else s

def reject (host : Host) (env replayEnv : Env) (principal : Principal) (requestId : String)
    (actionId : Uuid) (reason : Option String) (s : System) : System :=
  if (reason.map fun r => decide (500 < r.length)).getD false then s
  else match (rejection env principal requestId actionId reason).run host s.db with
    | (.error _, db) => { s with db }
    | (.ok outcome, db) =>
        let s := { s with db }
        if outcome.status = .denied ∧ outcome.message = "Action rejected." then
          s.resume host replayEnv actionId
            { status := "rejected", message := "The request was rejected." }
        else s

def step (host : Host) (s : System) : Request → System
  | .chat env principal requestId body route uuid =>
      s.chat host env principal requestId body route uuid
  | .approve env replayEnv principal requestId actionId actionHash =>
      s.approve host env replayEnv principal requestId actionId actionHash
  | .reject env replayEnv principal requestId actionId reason =>
      s.reject host env replayEnv principal requestId actionId reason
  | .users known => { s with db := { s.db with users := known } }

/-! ## Counting proposals -/

/-- Whether the request is a turn whose tool call returns pending. -/
def proposed (host : Host) (s : System) : Request → Bool
  | .chat env principal requestId body route uuid =>
      s.chatStatus host env principal requestId body route uuid = some .pending
  | _ => false

/-- The number of turns of a run whose tool call returned pending. -/
def proposedTurns (host : Host) (s : System) : List Request → Nat
  | [] => 0
  | request :: rest =>
      (if s.proposed host request then 1 else 0) + proposedTurns host (s.step host request) rest

/-- The action's conversation stands at a tool node that would propose again. -/
def Replays (host : Host) (s : System) (p : PendingAction) : Prop :=
  s.agent = true ∧ ∃ conversation state, p.conversationId = some conversation ∧
    s.threads.lookup conversation = some state ∧ Proposes host s.db state

/-- The request is no decision that goes through and resumes a node that would propose
again. -/
def Harmless (host : Host) (s : System) : Request → Prop
  | .approve env _ principal _ actionId actionHash => ∀ p requester spec,
      s.db.pendingAction actionId = some p →
      Approves s.db env.now principal actionHash p requester spec → Feasible host s.db p spec →
      ¬s.Replays host p
  | .reject _ _ principal _ actionId _ => ∀ p,
      s.db.pendingAction actionId = some p → Rejects principal p → ¬s.Replays host p
  | _ => True

end System

def Request.IsDecision : Request → Prop
  | .approve .. | .reject .. => True
  | _ => False

/-! ## Rows a decision leaves -/

/-- After a change of the row an id denotes, the id denotes the changed row. -/
theorem pendingAction_changePending (change : PendingAction → PendingAction) {db db' : Db}
    {id : Uuid} {p : PendingAction} (found : db.pendingAction id = some p)
    (keeps : ∀ q : PendingAction, (change q).id = q.id)
    (rows : db'.pendingActions = Db.changePending id change db.pendingActions) :
    db'.pendingAction id = some (change p) := by
  have named : p.id = id := by
    unfold Db.pendingAction at found
    simpa using List.find?_some found
  have sameTest : ((fun q : PendingAction => q.id == id) ∘ fun q =>
      if q.id = id then change q else q) = fun q => q.id == id := by
    funext q
    by_cases isIt : q.id = id
    · simp [isIt, keeps]
    · simp [isIt]
  unfold Db.pendingAction Db.changePending at *
  rw [rows, List.find?_map, sameTest, found, Option.map_some, if_pos named]

/-- An approval that executes found the conditions met, and the row keeps its
conversation. -/
theorem approval_executes (host : Host) {call : Call} {actionId : Uuid} {actionHash : String}
    (db : Db) (operation : call.operation = .approvePending actionId actionHash) :
    ∀ outcome, (call.run host db).1 = .ok outcome → outcome.status = .ok →
      ∃ p p' requester spec, db.pendingAction actionId = some p ∧
        Approves db call.env.now call.caller actionHash p requester spec ∧
        Feasible host db p spec ∧ (call.run host db).2.pendingAction actionId = some p' ∧
        p'.conversationId = p.conversationId := by
  intro outcome returned executed
  have done := Call.run_ok returned
  unfold Call.body at done
  rw [operation] at done
  cases approvePending_effect done with
  | refused status recorded =>
      rw [status] at executed
      cases executed
  | closed p found undecided closing unexecuted decision status answers recorded =>
      rw [executed] at status
      rcases status with same | same <;> cases same
  | executed p found requester spec approves feasible mid ran column status recorded =>
      obtain ⟨row, -, -, after⟩ := recorded
      have rows : (call.run host db).2.pendingActions = Db.changePending actionId
          (PendingAction.execute call.caller.userId column call.env.dbNow) db.pendingActions := by
        rw [after, ← ran.pendingActions]
      have there := pendingAction_changePending
        (PendingAction.execute call.caller.userId column call.env.dbNow) found (fun _ => rfl) rows
      exact ⟨p, _, requester, spec, found, approves, feasible, there, rfl⟩

/-- A rejection that goes through was allowed, and the row keeps its conversation. -/
theorem rejection_rejects (host : Host) {call : Call} {actionId : Uuid} {reason : Option String}
    (db : Db) (operation : call.operation = .rejectPending actionId reason) :
    ∀ outcome, (call.run host db).1 = .ok outcome → outcome.message = "Action rejected." →
      ∃ p p', db.pendingAction actionId = some p ∧ Rejects call.caller p ∧
        (call.run host db).2.pendingAction actionId = some p' ∧
        p'.conversationId = p.conversationId := by
  intro outcome returned message
  have done := Call.run_ok returned
  unfold Call.body at done
  rw [operation] at done
  cases rejectPending_effect done with
  | nothing refused status other unchanged => exact absurd message other
  | rejected p found rejects status recorded =>
      obtain ⟨row, -, -, after⟩ := recorded
      have there := pendingAction_changePending
        (PendingAction.close .rejected (some call.caller.userId) call.env.dbNow) found
        (fun _ => rfl) (congrArg Db.pendingActions after)
      exact ⟨p, _, found, rejects, there, rfl⟩

/-! ## What requests add -/

namespace System

/-- Standing at a node that would propose depends on the users and the thread only. -/
theorem Replays.congr {s s' : System} {p p' : PendingAction} (replays : s'.Replays host p')
    (agent : s'.agent = s.agent) (threads : s'.threads = s.threads)
    (users : s'.db.users = s.db.users) (conversation : p'.conversationId = p.conversationId) :
    s.Replays host p := by
  obtain ⟨on, thread, state, named, standing, principal, spec, args, active, proposal⟩ := replays
  have sameUser : principalOf s'.db state.userId = principalOf s.db state.userId := by
    unfold principalOf Db.user
    rw [users]
  exact ⟨agent ▸ on, thread, state, conversation ▸ named, threads ▸ standing, principal, spec,
    args, sameUser ▸ active, proposal⟩

/-- Resuming a conversation that does not stand at a proposing node proposes nothing. -/
theorem resume_same (s : System) {pendingId : Uuid} (env : Env) (payload : Resume)
    (harmless : ∀ p, s.db.pendingAction pendingId = some p → ¬s.Replays host p) :
    s.db.SameProposals (s.resume host env pendingId payload).db := by
  unfold resume
  cases found : s.db.pendingAction pendingId with
  | none => exact .refl s.db
  | some pending =>
  cases named : pending.conversationId with
  | none =>
      simp only [named]
      exact .refl s.db
  | some conversation =>
  simp only [named]
  by_cases off : s.agent = false
  · rw [if_pos off]
    exact .refl s.db
  rw [if_neg off]
  cases standing : s.threads.lookup conversation with
  | none => exact .refl s.db
  | some state =>
      rcases toolNode_counts host env state (some payload) s.db with ⟨-, proposes, -⟩ | ⟨-, same⟩
      · have replays : s.Replays host pending :=
          ⟨eq_true_of_ne_false off, conversation, state, named, standing, proposes⟩
        exact absurd replays (harmless pending found)
      · exact same

theorem approve_same {s : System} (env replayEnv : Env) (principal : Principal)
    (requestId : String) (actionId : Uuid) (actionHash : String)
    (harmless : s.Harmless host
      (.approve env replayEnv principal requestId actionId actionHash)) :
    s.db.SameProposals
      (s.approve host env replayEnv principal requestId actionId actionHash).db := by
  unfold approve
  by_cases malformed : actionHash.length ≠ 64
  · rw [if_pos malformed]
    exact .refl s.db
  rw [if_neg malformed]
  have operation : (approval env principal requestId actionId actionHash).operation =
      .approvePending actionId actionHash := rfl
  have decided : s.db.SameProposals
      ((approval env principal requestId actionId actionHash).run host s.db).2 :=
    decision_proposes_nothing fun _ _ => by rw [operation]; exact nofun
  have conditions := approval_executes host s.db operation
  cases ran : (approval env principal requestId actionId actionHash).run host s.db with
  | mk returned db =>
  rw [ran] at decided conditions
  cases returned with
  | error raised => exact decided
  | ok outcome =>
      dsimp only
      by_cases executed : outcome.status = .ok
      · rw [if_pos executed]
        obtain ⟨p, p', requester, spec, found, approves, feasible, there, same⟩ :=
          conditions outcome rfl executed
        apply Db.SameProposals.trans (b := db) decided
        apply resume_same { s with db }
        intro q atId replays
        obtain rfl : p' = q := Option.some.inj (there.symm.trans atId)
        exact harmless p requester spec found approves feasible
          (replays.congr rfl rfl decided.users same)
      · rw [if_neg executed]
        exact decided

theorem reject_same {s : System} (env replayEnv : Env) (principal : Principal)
    (requestId : String) (actionId : Uuid) (reason : Option String)
    (harmless : s.Harmless host (.reject env replayEnv principal requestId actionId reason)) :
    s.db.SameProposals
      (s.reject host env replayEnv principal requestId actionId reason).db := by
  unfold reject
  by_cases malformed : (reason.map fun r => decide (500 < r.length)).getD false
  · rw [if_pos malformed]
    exact .refl s.db
  rw [if_neg malformed]
  have operation : (rejection env principal requestId actionId reason).operation =
      .rejectPending actionId reason := rfl
  have decided : s.db.SameProposals
      ((rejection env principal requestId actionId reason).run host s.db).2 :=
    decision_proposes_nothing fun _ _ => by rw [operation]; exact nofun
  have conditions := rejection_rejects host s.db operation
  cases ran : (rejection env principal requestId actionId reason).run host s.db with
  | mk returned db =>
  rw [ran] at decided conditions
  cases returned with
  | error raised => exact decided
  | ok outcome =>
      dsimp only
      by_cases rejected : outcome.status = .denied ∧ outcome.message = "Action rejected."
      · rw [if_pos rejected]
        obtain ⟨p, p', found, rejects, there, same⟩ := conditions outcome rfl rejected.2
        apply Db.SameProposals.trans (b := db) decided
        apply resume_same { s with db }
        intro q atId replays
        obtain rfl : p' = q := Option.some.inj (there.symm.trans atId)
        exact harmless p found rejects (replays.congr rfl rfl decided.users same)
      · rw [if_neg rejected]
        exact decided

/-- A turn adds a pending action exactly when its call returns pending. -/
theorem chat_counts (s : System) (env : Env) (principal : Principal) (requestId : String)
    (body : ChatRequest) (route : Route) (uuid : Uuid) :
    (s.chat host env principal requestId body route uuid).db.pendingActions.length =
      s.db.pendingActions.length +
        if s.proposed host (.chat env principal requestId body route uuid) then 1 else 0 := by
  unfold chat proposed chatStatus
  by_cases unknown : body.knownModel = false
  · simp [unknown]
  simp only [if_neg unknown]
  cases owned : getOrCreate s.conversations body.conversationId principal.userId body.message uuid with
  | none => simp
  | some pair =>
  obtain ⟨conversation, conversations⟩ := pair
  dsimp only
  by_cases off : s.agent = false
  · simp [off]
  simp only [if_neg off]
  cases route with
  | smallTalk => simp
  | knowledge => simp
  | refuse => simp
  | tool tool arguments =>
      dsimp only
      have counts := toolNode_counts host env
        (turnState principal requestId body conversation tool arguments) none s.db
      rcases counts with ⟨pending, -, added⟩ | ⟨other, same⟩
      · simp only [pending, decide_true, if_true]
        exact added
      · simp only [decide_eq_false other, Bool.false_eq_true, if_false, Nat.add_zero]
        exact same.actions

/-! ## Runs -/

def afterAll (host : Host) (s : System) (requests : List Request) : System :=
  requests.foldl (step host) s

theorem harmless_step {s : System} (request : Request) (harmless : s.Harmless host request) :
    (s.step host request).db.pendingActions.length =
        s.db.pendingActions.length + (if s.proposed host request then 1 else 0) ∧
      (request.IsDecision → s.db.SameProposals (s.step host request).db) := by
  cases request with
  | chat env principal requestId body route uuid =>
      exact ⟨s.chat_counts env principal requestId body route uuid, False.elim⟩
  | approve env replayEnv principal requestId actionId actionHash =>
      have same := approve_same env replayEnv principal requestId actionId actionHash harmless
      exact ⟨same.actions, fun _ => same⟩
  | reject env replayEnv principal requestId actionId reason =>
      have same := reject_same env replayEnv principal requestId actionId reason harmless
      exact ⟨same.actions, fun _ => same⟩
  | users known => exact ⟨rfl, False.elim⟩

theorem counted {s s' : System} {requests : List Request}
    (run : Run (Guarded (fun s => s.Harmless host) (StepOf (step host))) s requests s') :
    s'.db.pendingActions.length = s.db.pendingActions.length + s.proposedTurns host requests := by
  induction run with
  | nil s => rfl
  | @cons s mid s' request requests here rest ih =>
      obtain ⟨harmless, rfl⟩ := here
      have one := (harmless_step request harmless).1
      rw [ih, one, proposedTurns]
      omega

/-- **While no decision that goes through resumes a node that would propose again, there
is one pending action for each turn whose call returned pending, and no decision adds a
pending action or a pending record.** -/
theorem proposals_counted {s s' : System} {requests : List Request}
    (run : Run (Guarded (fun s => s.Harmless host) (StepOf (step host))) s requests s')
    (initial : s.db.pendingActions = []) :
    s'.db.pendingActions.length = s.proposedTurns host requests ∧
      ∀ front request back, requests = front ++ request :: back → request.IsDecision →
        (s.afterAll host front).db.SameProposals (s.afterAll host (front ++ [request])).db := by
  constructor
  · have count := counted run
    rw [initial] at count
    simpa using count
  · rintro front request back rfl decision
    obtain ⟨mid, first, second⟩ := Run.append_iff.mp run
    obtain rfl : s.afterAll host front = mid := Run.stepOf_iff.mp first.unguarded
    cases second with
    | cons here rest =>
        obtain ⟨harmless, -⟩ := here
        have last : s.afterAll host (front ++ [request]) =
            (s.afterAll host front).step host request := List.foldl_append
        rw [last]
        exact (harmless_step request harmless).2 decision

end System

/-! ## Poles -/

def poleSystem : System := { db := poleDb }

def poleTurn (conversationId : Option Uuid) (route : Route) : Request :=
  .chat poleEnv poleRequester "r1" { conversationId, message := "" } route 5

def poleRejection : Request :=
  .reject { poleEnv with auditId := 2 } { poleEnv with auditId := 3, uuid := 8 } poleApprover "r2" 7
    none

/-- Rejecting a proposal leaves a second one. -/
theorem rejection_proposes_again :
    let requests := [poleTurn none (.tool "create_vpn_profile" poleArguments), poleRejection]
    ((poleSystem.afterAll .plain requests).db.pendingActions.map PendingAction.status,
      poleSystem.proposedTurns .plain requests) = ([.rejected, .pending], 1) := by
  decide +kernel

/-- A turn, another on the same conversation, then the rejection: its thread no longer
stands at the tool node. -/
theorem proposals_counted_pole :
    let first := poleTurn none (.tool "create_vpn_profile" poleArguments)
    let second := poleTurn (some 5) .smallTalk
    (poleSystem.afterAll .plain [first, second, poleRejection]).db.pendingActions.length =
      poleSystem.proposedTurns .plain [first, second, poleRejection] := by
  intro first second
  have idle : ((poleSystem.step .plain first).step .plain second).threads = [] :=
    List.eq_nil_of_length_eq_zero (by decide +kernel)
  rw [System.afterAll, List.foldl_cons, List.foldl_cons, List.foldl_cons, List.foldl_nil]
  generalize reached : poleSystem.step .plain first = one at idle ⊢
  generalize reached' : one.step .plain second = two at idle ⊢
  have harmless : two.Harmless .plain poleRejection := by
    rintro p - - ⟨-, conversation, state, -, standing, -⟩
    rw [idle] at standing
    cases standing
  have run : Run (Guarded (fun s => System.Harmless .plain s) (StepOf (System.step .plain)))
      poleSystem [first, second, poleRejection] (two.step .plain poleRejection) :=
    .cons ⟨trivial, reached⟩ (.cons ⟨trivial, reached'⟩ (.cons ⟨harmless, rfl⟩ (.nil _)))
  exact (System.proposals_counted run rfl).1

end OpsAssist
