/-
# OpsAssist.Tools.Approvals -- approval safety over whole runs

A run interleaves tool calls, approvals and rejections by anyone with arbitrary
changes of the users.  `Call.change` reduces a call to what it does to the pending
actions and the profiles; `Db.Consistent` is the invariant it keeps: each executed
`create_vpn_profile` action has its own profile, written for its requester and
approver, and the two differ.

`approvals_safe`: executed actions were approved, the profiles are the executed
actions, decisions are final and a call that is not ok leaves tickets and profiles.
-/
import OpsAssist.Theory.Run
import OpsAssist.Tools.Calls

namespace OpsAssist

set_option autoImplicit false

open Theory

variable {host : Host}

/-! ## Runs -/

/-- A call, or a change of the users from outside: permissions, activity, anything. -/
inductive Event where
  | call (made : Call)
  | users (known : List User)

def Event.step (host : Host) (db : Db) : Event → Db
  | .call made => (made.run host db).2
  | .users known => { db with users := known }

def Db.after (host : Host) (db : Db) (events : List Event) : Db :=
  events.foldl (Event.step host) db

theorem Db.run_after (host : Host) (db : Db) (events : List Event) :
    Run (StepOf (Event.step host)) db events (db.after host events) :=
  Run.stepOf_iff.mpr rfl

/-! ## What a call does to the pending actions and the profiles -/

def Db.DistinctActions (db : Db) : Prop := (db.pendingActions.map PendingAction.id).Nodup

/-- An action `p` at its place, and the actions with `p'` there instead. -/
structure Replaced (p p' : PendingAction) (front back rows rows' : List PendingAction) :
    Prop where
  before : rows = front ++ p :: back
  after : rows' = front ++ p' :: back
  sameId : p'.id = p.id

/-- With distinct ids, changing the row an id denotes changes it alone. -/
theorem changePending_replaced {db : Db} (distinct : db.DistinctActions) {id : Uuid}
    {p : PendingAction} (found : db.pendingAction id = some p)
    (change : PendingAction → PendingAction) (keeps : (change p).id = p.id) :
    p.id = id ∧ ∃ front back, Replaced p (change p) front back db.pendingActions
      (Db.changePending id change db.pendingActions) := by
  unfold Db.pendingAction at found
  obtain ⟨isId, front, back, split, others⟩ := List.find?_eq_some_iff_append.mp found
  have named : p.id = id := by simpa using isId
  have inFront : ∀ q ∈ front, q.id ≠ id := fun q mem => by simpa using others q mem
  have inBack : ∀ q ∈ back, q.id ≠ id := by
    intro q mem same
    unfold Db.DistinctActions at distinct
    rw [split, List.map_append, List.map_cons, List.nodup_append] at distinct
    have fresh := (List.nodup_cons.mp distinct.2.1).1
    exact fresh (List.mem_map.mpr ⟨q, mem, by rw [same, named]⟩)
  refine ⟨named, front, back, split, ?_, keeps⟩
  unfold Db.changePending
  rw [split, List.map_append, List.map_cons, if_pos named,
    List.map_congr_left fun q mem => if_neg (inFront q mem),
    List.map_congr_left fun q mem => if_neg (inBack q mem), List.map_id', List.map_id']

/-- What a call can do to the pending actions and the profiles. -/
inductive Call.Change (host : Host) (call : Call) (db db' : Db) : Prop where
  | kept (rows : db'.pendingActions = db.pendingActions)
      (profiles : db'.vpnProfiles = db.vpnProfiles)
  | proposed (p : PendingAction) (fresh : ∀ q ∈ db.pendingActions, q.id ≠ p.id)
      (undecided : p.status = .pending) (rows : db'.pendingActions = db.pendingActions ++ [p])
      (profiles : db'.vpnProfiles = db.vpnProfiles)
  | closed (p p' : PendingAction) (front back : List PendingAction)
      (replaced : Replaced p p' front back db.pendingActions db'.pendingActions)
      (undecided : p.status = .pending) (decided : p'.status ≠ .pending ∧ p'.status ≠ .executed)
      (profiles : db'.vpnProfiles = db.vpnProfiles)
  | executed (p : PendingAction) (front back : List PendingAction) (column : Jsonb)
      (replaced : Replaced p (p.execute call.caller.userId column call.env.dbNow) front back
        db.pendingActions db'.pendingActions)
      (confirmHash : String) (operation : call.operation = .approvePending p.id confirmHash)
      (requester : Principal) (spec : ToolSpec)
      (approves : Approves db call.env.now call.caller confirmHash p requester spec)
      (status : ∃ outcome, (call.run host db).1 = .ok outcome ∧ outcome.status = .ok)
      (profiles : db'.vpnProfiles = db.vpnProfiles ∧ p.tool ≠ "create_vpn_profile" ∨
        p.tool = "create_vpn_profile" ∧ ∃ v : VpnProfile, v.pendingActionId = p.id ∧
          v.requestedBy = p.requesterId ∧ v.approvedBy = call.caller.userId ∧
          db'.vpnProfiles = db.vpnProfiles ++ [v])

theorem Executed.profiles {requester approver tool : String} {action : Uuid} {db db' : Db}
    (executed : Executed requester approver tool action db db') :
    db'.vpnProfiles = db.vpnProfiles ∧ tool ≠ "create_vpn_profile" ∨
      tool = "create_vpn_profile" ∧ ∃ v : VpnProfile, v.pendingActionId = action ∧
        v.requestedBy = requester ∧ v.approvedBy = approver ∧
        db'.vpnProfiles = db.vpnProfiles ++ [v] := by
  cases executed with
  | profile v named requestedBy approvedBy forAction =>
      exact .inr ⟨named, v, forAction, requestedBy, approvedBy, rfl⟩
  | unchanged named => exact .inl ⟨rfl, named⟩
  | ticket t named => exact .inl ⟨rfl, named⟩

theorem Handled.Effect.harmless {spec : ToolSpec} {tool : String} {raw : Value}
    {principal : Principal} {args : ToolArgs} {db db' : Db} {result : Value}
    (known : findTool tool = some spec) (harmless : spec.sensitive = false)
    (validated : spec.argsModel.validate host raw = .ok args)
    (effect : Handled.Effect principal args db result db') :
    db'.pendingActions = db.pendingActions ∧ db'.vpnProfiles = db.vpnProfiles := by
  cases effect with
  | unchanged model => exact ⟨rfl, rfl⟩
  | ticket t model => exact ⟨rfl, rfl⟩
  | profile p model fits requestedBy named =>
      rw [validate_model validated] at model
      rw [(findTool_sensitive known).mpr model] at harmless
      exact absurd harmless Bool.true_eq_false_eq_False.elim

theorem Call.change (host : Host) (call : Call) {db : Db} (distinct : db.DistinctActions) :
    call.Change host db (call.run host db).2 := by
  cases returned : (call.run host db).1 with
  | error raised =>
      rw [Call.run_error returned]
      exact .kept rfl rfl
  | ok outcome =>
      have done := Call.run_ok returned
      generalize after : (call.run host db).2 = db' at done ⊢
      unfold Call.body at done
      cases operation : call.operation with
      | runTool tool rawArgs =>
          rw [operation] at done
          cases runTool_effect done with
          | refused decision status decided recorded =>
              obtain ⟨row, -, -, rfl⟩ := recorded
              exact .kept rfl rfl
          | proposed spec args p known sensitive validated allowed fits id named requester undecided status proposal
              arguments hashed recorded =>
              obtain ⟨row, -, -, rfl⟩ := recorded
              exact .proposed p (Db.pendingOk_fresh fits) undecided rfl rfl
          | executed spec args result mid known harmless validated handled status recorded =>
              obtain ⟨row, -, -, rfl⟩ := recorded
              obtain ⟨rows, profiles⟩ := handled.harmless known harmless validated
              exact .kept rows profiles
      | approvePending pendingId confirmHash =>
          rw [operation] at done
          cases approvePending_effect done with
          | refused status recorded =>
              obtain ⟨row, -, -, rfl⟩ := recorded
              exact .kept rfl rfl
          | closed p found undecided closing unexecuted decision status answers recorded =>
              obtain ⟨row, -, -, rfl⟩ := recorded
              obtain ⟨-, front, back, replaced⟩ := changePending_replaced distinct found
                (PendingAction.close closing none call.env.dbNow) rfl
              exact .closed p _ front back replaced undecided unexecuted rfl
          | executed p found requester spec approves feasible mid executed column status recorded =>
              obtain ⟨row, -, -, rfl⟩ := recorded
              obtain ⟨rfl, front, back, replaced⟩ := changePending_replaced distinct found
                (PendingAction.execute call.caller.userId column call.env.dbNow) rfl
              refine .executed p front back column ?_ confirmHash operation requester spec approves
                ⟨outcome, returned, status⟩ executed.profiles
              dsimp only
              rw [executed.pendingActions]
              exact replaced
      | rejectPending pendingId reason =>
          rw [operation] at done
          cases rejectPending_effect done with
          | nothing refused status message unchanged =>
              rw [unchanged]
              exact .kept rfl rfl
          | rejected p found rejects status recorded =>
              obtain ⟨row, -, -, rfl⟩ := recorded
              obtain ⟨-, front, back, replaced⟩ := changePending_replaced distinct found
                (PendingAction.close .rejected (some call.caller.userId) call.env.dbNow) rfl
              exact .closed p _ front back replaced rejects.1 ⟨nofun, nofun⟩ rfl

/-! ## The invariant -/

/-- Which action a profile is for, who asked for it and who approved it. -/
def VpnProfile.approval (v : VpnProfile) : Uuid × String × Option String :=
  (v.pendingActionId, v.requestedBy, some v.approvedBy)

def PendingAction.approval (p : PendingAction) : Uuid × String × Option String :=
  (p.id, p.requesterId, p.approverId)

def PendingAction.MadeProfile (p : PendingAction) : Prop :=
  p.status = .executed ∧ p.tool = "create_vpn_profile"

instance (p : PendingAction) : Decidable p.MadeProfile := inferInstanceAs (Decidable (_ ∧ _))

/-- The executed `create_vpn_profile` actions. -/
def Db.executedProfiles (rows : List PendingAction) : List PendingAction :=
  rows.filter fun p => p.MadeProfile

/-- Ids of actions are distinct, the profiles are the executed actions, and nobody
approved their own. -/
structure Db.Consistent (db : Db) : Prop where
  distinct : db.DistinctActions
  matched : (db.vpnProfiles.map VpnProfile.approval).Perm
    ((Db.executedProfiles db.pendingActions).map PendingAction.approval)
  separate : ∀ v ∈ db.vpnProfiles, v.requestedBy ≠ v.approvedBy

theorem Replaced.distinct {p p' : PendingAction} {front back rows rows' : List PendingAction}
    (replaced : Replaced p p' front back rows rows') :
    rows'.map PendingAction.id = rows.map PendingAction.id := by
  rw [replaced.before, replaced.after, List.map_append, List.map_append, List.map_cons,
    List.map_cons, replaced.sameId]

theorem executedProfiles_append (rows rows' : List PendingAction) :
    Db.executedProfiles (rows ++ rows') = Db.executedProfiles rows ++ Db.executedProfiles rows' :=
  List.filter_append ..

theorem executedProfiles_cons_of {p : PendingAction} {rows : List PendingAction}
    (made : p.MadeProfile) :
    Db.executedProfiles (p :: rows) = p :: Db.executedProfiles rows :=
  List.filter_cons_of_pos (decide_eq_true made)

theorem executedProfiles_cons_skip {p : PendingAction} {rows : List PendingAction}
    (unmade : ¬p.MadeProfile) : Db.executedProfiles (p :: rows) = Db.executedProfiles rows :=
  List.filter_cons_of_neg (by simpa using unmade)

/-- Replacing an action that made no profile by one that made none leaves the executed
actions. -/
theorem Replaced.executedProfiles_skip {p p' : PendingAction}
    {front back rows rows' : List PendingAction} (replaced : Replaced p p' front back rows rows')
    (was : ¬p.MadeProfile) (is : ¬p'.MadeProfile) :
    Db.executedProfiles rows' = Db.executedProfiles rows := by
  rw [replaced.before, replaced.after, executedProfiles_append, executedProfiles_append,
    executedProfiles_cons_skip was, executedProfiles_cons_skip is]

/-- Executing an action adds it to the executed ones, at some place. -/
theorem Replaced.executedProfiles_add {p p' : PendingAction}
    {front back rows rows' : List PendingAction} (replaced : Replaced p p' front back rows rows')
    (was : ¬p.MadeProfile) (is : p'.MadeProfile) :
    (Db.executedProfiles rows').Perm (Db.executedProfiles rows ++ [p']) := by
  rw [replaced.before, replaced.after, executedProfiles_append, executedProfiles_append,
    executedProfiles_cons_skip was, executedProfiles_cons_of is, List.append_assoc]
  exact (List.perm_append_singleton _ _).symm.append_left _

theorem PendingAction.not_madeProfile_of_pending {p : PendingAction} (undecided : p.status = .pending) :
    ¬p.MadeProfile := by
  rintro ⟨executed, -⟩
  rw [undecided] at executed
  cases executed

/-- A call keeps the invariant. -/
theorem Call.Change.consistent {call : Call} {db db' : Db} (change : call.Change host db db')
    (inv : db.Consistent) : db'.Consistent := by
  cases change with
  | kept rows profiles =>
      refine ⟨?_, ?_, ?_⟩
      · rw [Db.DistinctActions, rows]; exact inv.distinct
      · rw [rows, profiles]; exact inv.matched
      · rw [profiles]; exact inv.separate
  | proposed p fresh undecided rows profiles =>
      refine ⟨?_, ?_, ?_⟩
      · rw [Db.DistinctActions, rows, List.map_append, List.map_singleton]
        refine List.nodup_append.mpr ⟨inv.distinct, List.nodup_singleton _, ?_⟩
        intro id mem other one
        obtain ⟨q, there, rfl⟩ := List.mem_map.mp mem
        rw [List.mem_singleton.mp one]
        exact fresh q there
      · rw [rows, profiles, executedProfiles_append,
          executedProfiles_cons_skip (PendingAction.not_madeProfile_of_pending undecided)]
        simpa [Db.executedProfiles] using inv.matched
      · rw [profiles]; exact inv.separate
  | closed p p' front back replaced undecided decided profiles =>
      refine ⟨?_, ?_, ?_⟩
      · rw [Db.DistinctActions, replaced.distinct]; exact inv.distinct
      · rw [profiles, replaced.executedProfiles_skip
          (PendingAction.not_madeProfile_of_pending undecided) fun made => decided.2 made.1]
        exact inv.matched
      · rw [profiles]; exact inv.separate
  | executed p front back column replaced confirmHash operation requester spec approves status
      profiles =>
      have was := PendingAction.not_madeProfile_of_pending approves.undecided
      rcases profiles with ⟨same, other⟩ | ⟨vpn, v, forAction, requestedBy, approvedBy, added⟩
      · refine ⟨?_, ?_, ?_⟩
        · rw [Db.DistinctActions, replaced.distinct]; exact inv.distinct
        · rw [same, replaced.executedProfiles_skip was fun made => other made.2]
          exact inv.matched
        · rw [same]; exact inv.separate
      · refine ⟨?_, ?_, ?_⟩
        · rw [Db.DistinctActions, replaced.distinct]; exact inv.distinct
        · have adds := (replaced.executedProfiles_add was ⟨rfl, vpn⟩).map PendingAction.approval
          rw [List.map_append, List.map_singleton] at adds
          rw [added, List.map_append, List.map_singleton]
          refine (inv.matched.append_right _).trans (List.Perm.trans ?_ adds.symm)
          rw [VpnProfile.approval, forAction, requestedBy, approvedBy]
          exact .refl _
        · rw [added]
          intro w mem
          rcases List.mem_append.mp mem with old | new
          · exact inv.separate w old
          · rw [List.mem_singleton.mp new, requestedBy, approvedBy]
            exact approves.different.symm

theorem Db.Consistent.step {db : Db} (event : Event) (inv : db.Consistent) :
    (event.step host db).Consistent := by
  cases event with
  | call made => exact (Call.change host made inv.distinct).consistent inv
  | users known => exact ⟨inv.distinct, inv.matched, inv.separate⟩

theorem Db.Consistent.run {db db' : Db} {events : List Event}
    (run : Run (StepOf (Event.step host)) db events db') (inv : db.Consistent) : db'.Consistent :=
  run.invariant (fun _ _ _ step holds => step ▸ holds.step _) inv

/-- No pending action and no profile yet. -/
structure Db.Fresh (db : Db) : Prop where
  pendingActions : db.pendingActions = []
  vpnProfiles : db.vpnProfiles = []

theorem Db.Fresh.consistent {db : Db} (fresh : db.Fresh) : db.Consistent where
  distinct := by rw [DistinctActions, fresh.pendingActions]; exact List.nodup_nil
  matched := by rw [fresh.pendingActions, fresh.vpnProfiles]; exact .refl _
  separate := by rw [fresh.vpnProfiles]; exact nofun

/-! ## Decisions are final -/

/-- A decided action stays as it is. -/
theorem Call.Change.final {call : Call} {db db' : Db} (change : call.Change host db db')
    {p : PendingAction} (mem : p ∈ db.pendingActions) (decided : p.status ≠ .pending) :
    p ∈ db'.pendingActions := by
  have elsewhere : ∀ {q q' : PendingAction} {front back rows : List PendingAction},
      Replaced q q' front back db.pendingActions rows → q.status = .pending → p ∈ rows := by
    intro q q' front back rows replaced undecided
    rw [replaced.after]
    rw [replaced.before] at mem
    rcases List.mem_append.mp mem with first | later
    · exact List.mem_append_left _ first
    · rcases List.mem_cons.mp later with rfl | last
      · exact absurd undecided decided
      · exact List.mem_append_right _ (List.mem_cons_of_mem _ last)
  cases change with
  | kept rows profiles => rwa [rows]
  | proposed q fresh undecided rows profiles => rw [rows]; exact List.mem_append_left _ mem
  | closed q q' front back replaced undecided decided profiles =>
      exact elsewhere replaced undecided
  | executed q front back column replaced confirmHash operation requester spec approves =>
      exact elsewhere replaced approves.undecided

theorem final_run {db db' : Db} {events : List Event}
    (run : Run (StepOf (Event.step host)) db events db') (inv : db.Consistent)
    {p : PendingAction} (mem : p ∈ db.pendingActions) (decided : p.status ≠ .pending) :
    p ∈ db'.pendingActions := by
  have keeps : ∀ (s : Db) (event : Event) (s' : Db), StepOf (Event.step host) s event s' →
      s.Consistent ∧ p ∈ s.pendingActions → s'.Consistent ∧ p ∈ s'.pendingActions := by
    rintro s event s' rfl ⟨holds, there⟩
    refine ⟨holds.step event, ?_⟩
    cases event with
    | call made => exact (Call.change host made holds.distinct).final there decided
    | users known => exact there
  exact (run.invariant keeps ⟨inv, mem⟩).2

/-! ## Executed actions were approved -/

/-- One of the events is the approval that executed the action. -/
def WasApproved (host : Host) (db : Db) (events : List Event) (p : PendingAction) : Prop :=
  ∃ front call back confirmHash requester spec outcome, ∃ q ∈ (db.after host front).pendingActions,
    events = front ++ .call call :: back ∧
    call.operation = .approvePending p.id confirmHash ∧
    Approves (db.after host front) call.env.now call.caller confirmHash q requester spec ∧
    (call.run host (db.after host front)).1 = .ok outcome ∧ outcome.status = .ok ∧
    ∃ column, p = q.execute call.caller.userId column call.env.dbNow

theorem wasApproved {db : Db} (fresh : db.Fresh) {events : List Event} {p : PendingAction}
    (mem : p ∈ (db.after host events).pendingActions) (executed : p.status = .executed) :
    WasApproved host db events p := by
  obtain ⟨front, event, back, mid, mid', shape, first, step, was, is, -⟩ :=
    (db.run_after host events).establish (P := fun s => p ∈ s.pendingActions)
      (by rw [fresh.pendingActions]; exact List.not_mem_nil) mem
  have inv := fresh.consistent.run first
  obtain rfl : db.after host front = mid := Run.stepOf_iff.mp first
  cases event with
  | users known =>
      rw [← step] at is
      exact absurd is was
  | call made =>
      have change := Call.change host made inv.distinct
      have entered : ∀ {q q' : PendingAction} {before after : List PendingAction},
          Replaced q q' before after (db.after host front).pendingActions
            (made.run host (db.after host front)).2.pendingActions → p = q' := by
        intro q q' before after replaced
        rw [← step] at is
        have here : p ∈ before ++ q' :: after := replaced.after ▸ is
        rw [replaced.before] at was
        simp only [List.mem_append, List.mem_cons, not_or] at was here
        rcases here with first | same | last
        · exact absurd first was.1
        · exact same
        · exact absurd last was.2.2
      rw [← step] at is
      cases change with
      | kept rows profiles => exact absurd (rows ▸ is) was
      | proposed q new undecided rows profiles =>
          have here : p ∈ (db.after host front).pendingActions ++ [q] := rows ▸ is
          rcases List.mem_append.mp here with old | added
          · exact absurd old was
          · rw [List.mem_singleton.mp added, undecided] at executed
            cases executed
      | closed q q' before after replaced undecided decided profiles =>
          rw [entered replaced] at executed
          exact absurd executed decided.2
      | executed q before after column replaced confirmHash operation requester spec approves
          status profiles =>
          obtain ⟨outcome, returned, ok⟩ := status
          have same := entered replaced
          refine ⟨front, made, back, confirmHash, requester, spec, outcome, q, ?_, shape, ?_,
            approves, returned, ok, column, same⟩
          · rw [replaced.before]
            exact List.mem_append_right _ List.mem_cons_self
          · rw [operation, same]
            rfl

/-! ## Only ok calls touch tickets and profiles -/

theorem Recorded.tables {actor : String} {decision : Decision} {db db' : Db}
    (recorded : Recorded actor decision db db') :
    db'.tickets = db.tickets ∧ db'.vpnProfiles = db.vpnProfiles := by
  obtain ⟨row, -, -, rfl⟩ := recorded
  exact ⟨rfl, rfl⟩

theorem call_not_ok {call : Call} {db : Db}
    (notOk : ∀ outcome, (call.run host db).1 = .ok outcome → outcome.status ≠ .ok) :
    (call.run host db).2.tickets = db.tickets ∧
      (call.run host db).2.vpnProfiles = db.vpnProfiles := by
  cases returned : (call.run host db).1 with
  | error raised =>
      rw [Call.run_error returned]
      exact ⟨rfl, rfl⟩
  | ok outcome =>
      have done := Call.run_ok returned
      have failed := notOk outcome returned
      unfold Call.body at done
      cases operation : call.operation with
      | runTool tool rawArgs =>
          rw [operation] at done
          cases runTool_effect done with
          | refused decision status decided recorded => exact recorded.tables
          | proposed spec args p known sensitive validated allowed fits id named requester undecided status proposal
              arguments hashed recorded => exact recorded.tables
          | executed spec args result mid known harmless validated handled status recorded =>
              exact absurd status failed
      | approvePending pendingId confirmHash =>
          rw [operation] at done
          cases approvePending_effect done with
          | refused status recorded => exact recorded.tables
          | closed p found undecided closing unexecuted decision status answers recorded =>
              exact recorded.tables
          | executed p found requester spec approves feasible mid executed column status recorded =>
              exact absurd status failed
      | rejectPending pendingId reason =>
          rw [operation] at done
          cases rejectPending_effect done with
          | nothing refused status message unchanged =>
              rw [unchanged]
              exact ⟨rfl, rfl⟩
          | rejected p found rejects status recorded => exact recorded.tables

/-! ## Approval safety -/

/-- What a run of calls and changes of users guarantees. -/
structure ApprovalsSafe (host : Host) (db : Db) (events : List Event) : Prop where
  approved : ∀ p ∈ (db.after host events).pendingActions, p.status = .executed →
    WasApproved host db events p
  distinct : ((db.after host events).pendingActions.map PendingAction.id).Nodup
  matched : ((db.after host events).vpnProfiles.map VpnProfile.approval).Perm
    ((Db.executedProfiles (db.after host events).pendingActions).map PendingAction.approval)
  separate : ∀ v ∈ (db.after host events).vpnProfiles, v.requestedBy ≠ v.approvedBy
  final : ∀ front back, events = front ++ back → ∀ p ∈ (db.after host front).pendingActions,
    p.status ≠ .pending → p ∈ (db.after host events).pendingActions
  untouched : ∀ front call back, events = front ++ .call call :: back →
    (∀ outcome, (call.run host (db.after host front)).1 = .ok outcome → outcome.status ≠ .ok) →
    (db.after host (front ++ [.call call])).tickets = (db.after host front).tickets ∧
      (db.after host (front ++ [.call call])).vpnProfiles = (db.after host front).vpnProfiles

theorem Db.after_append (db : Db) (front back : List Event) :
    db.after host (front ++ back) = (db.after host front).after host back :=
  List.foldl_append

/-- **Approval safety: in every run from a fresh database each executed action was
approved by another, entitled person, the profiles are the executed actions, decisions
are final, and only ok calls touch tickets and profiles.** -/
theorem approvals_safe {db : Db} (fresh : db.Fresh) (events : List Event) :
    ApprovalsSafe host db events := by
  have inv := fresh.consistent.run (db.run_after host events)
  refine ⟨fun p mem executed => wasApproved fresh mem executed, inv.distinct, inv.matched,
    inv.separate, ?_, ?_⟩
  · rintro front back rfl p mem decided
    have reached := fresh.consistent.run (db.run_after host front)
    rw [Db.after_append]
    exact final_run (Db.run_after host _ back) reached mem decided
  · intro front call back shape notOk
    rw [Db.after_append]
    exact call_not_ok notOk

/-! ## Poles -/

def poleUser (id permission : String) : User :=
  { id, name := "", department := "it_ops", role := "", permissions := [permission],
    isActive := true }

/-- One user who may ask for profiles, another who may approve them, and nothing else. -/
def poleDb : Db :=
  { emptyDb with users := [poleUser "U001" "vpn:create", poleUser "U002" "vpn:approve"] }

def poleRequester : Principal :=
  { userId := "U001", name := "", department := "it_ops", role := "",
    permissions := ["vpn:create"] }

def poleArguments : Value := .obj [("employee_id", .str "U001"), ("duration_days", .num (.int 7))]

/-- One user asks for a profile and the other approves it. -/
def poleEvents : List Event :=
  let dumped : Value := (ToolArgs.createVpnProfile (some "U001") none 7).dump
  [.call { env := poleEnv, caller := poleRequester, ctx := { requestId := "r1" },
           operation := .runTool "create_vpn_profile" poleArguments },
    .call { env := { poleEnv with auditId := 2, uuid := 8 }, caller := poleApprover,
            ctx := { requestId := "r2" },
            operation := .approvePending 7
              (actionHash .plain "create_vpn_profile" dumped "U001") }]

theorem approvals_safe_pole :
    ApprovalsSafe .plain poleDb poleEvents ∧
      (poleDb.after .plain poleEvents).pendingActions.map PendingAction.status = [.executed] :=
  ⟨approvals_safe ⟨rfl, rfl⟩ poleEvents, by decide +kernel⟩

end OpsAssist
