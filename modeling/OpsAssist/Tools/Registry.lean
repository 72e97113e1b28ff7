/-
# OpsAssist.Tools.Registry -- tool contracts and their typed arguments

Each tool has a schema its arguments are validated against, the permission it needs
and, when it is sensitive, the permission an approver must hold.  A schema runs its
rewriting validators, checks the fields in order and collects one error for each
failing field, then one for each unknown field; a rule across fields runs only when
all of them passed.
-/
import OpsAssist.Host
import OpsAssist.Theory.Text

namespace OpsAssist

set_option autoImplicit false

open Theory Theory.Text

def MAX_VPN_DAYS : Int := 30

inductive Severity where
  | critical
  | high
  | medium
  | low
deriving DecidableEq

def Severity.text : Severity → String
  | .critical => "critical"
  | .high => "high"
  | .medium => "medium"
  | .low => "low"

/-! ## Patterns -/

def isLowerAz (c : Char) : Bool := 'a' ≤ c && c ≤ 'z'
def isDigit09 (c : Char) : Bool := '0' ≤ c && c ≤ '9'

/-- `^[a-z][a-z_]*$` -/
def matchesDepartment : List Char → Bool
  | [] => false
  | c :: rest => isLowerAz c && rest.all fun d => isLowerAz d || d == '_'

/-- `^[a-z0-9][a-z0-9.-]*$` -/
def matchesServerId : List Char → Bool
  | [] => false
  | c :: rest =>
      (isLowerAz c || isDigit09 c) &&
        rest.all fun d => isLowerAz d || isDigit09 d || d == '.' || d == '-'

/-- `INC-[0-9]{1,10}` -/
def matchesTicketId : List Char → Bool
  | 'I' :: 'N' :: 'C' :: '-' :: digits =>
      digits.all isDigit09 && 1 ≤ digits.length && digits.length ≤ 10
  | _ => false

/-- `U[0-9]{3,}` -/
def matchesEmployeeId : List Char → Bool
  | 'U' :: digits => digits.all isDigit09 && 3 ≤ digits.length
  | _ => false

/-! ## Fields -/

/-- One error of a validation: where, and what. -/
structure FieldError where
  loc : List String
  kind : ErrorKind
deriving DecidableEq

/-- The constraints of a string field. -/
structure StringRule where
  min : Option Nat := none
  max : Option Nat := none
  pattern : Option (String × (List Char → Bool)) := none

/-- Check a string field: its type, its length, then its pattern. -/
def StringRule.check (rule : StringRule) : Value → Except ErrorKind String
  | .str s =>
      let length := s.toList.length
      let min := rule.min.getD 0
      let max := rule.max.getD length
      if length < min then .error (.stringTooShort min)
      else if max < length then .error (.stringTooLong max)
      else match rule.pattern with
        | none => .ok s
        | some (text, accepts) =>
            if accepts s.toList then .ok s else .error (.stringPatternMismatch text)
  | _ => .error .stringType

/-- A field that may be `None`. -/
def optionalCheck (check : Value → Except ErrorKind String) : Value → Except ErrorKind (Option String)
  | .null => .ok none
  | v => (check v).map some

/-- Check an integer field between two bounds. -/
def intCheck (host : Host) (ge le : Int) (v : Value) : Except ErrorKind Int :=
  match host.laxInt v with
  | none => .error .intType
  | some z =>
      if le < z then .error (.lessThanEqual le)
      else if z < ge then .error (.greaterThanEqual ge)
      else .ok z

def severityCheck : Value → Except ErrorKind Severity
  | .str "critical" => .ok .critical
  | .str "high" => .ok .high
  | .str "medium" => .ok .medium
  | .str "low" => .ok .low
  | _ => .error (.literalError ["'critical'", "'high'", "'medium'", "'low'"])

abbrev Members := List (String × Value)

section Fields

variable {α β : Type}

/-- A field of the input, or its default when it is absent; without one it is required. -/
def field (members : Members) (name : String) (check : Value → Except ErrorKind α)
    (default : Option α := none) : Except (List FieldError) α :=
  match members.lookup name with
  | some v =>
      match check v with
      | .ok a => .ok a
      | .error kind => .error [⟨[name], kind⟩]
  | none =>
      match default with
      | some a => .ok a
      | none => .error [⟨[name], .missing⟩]

/-- Two parts of a validation; the errors of both are reported. -/
def both (a : Except (List FieldError) α) (b : Except (List FieldError) β) :
    Except (List FieldError) (α × β) :=
  match a, b with
  | .ok x, .ok y => .ok (x, y)
  | .ok _, .error es => .error es
  | .error es, .ok _ => .error es
  | .error es, .error fs => .error (es ++ fs)

/-- Reject the members no field has (`extra="forbid"`). -/
def forbidExtra (names : List String) (members : Members) : Except (List FieldError) Unit :=
  match members.filter fun m => !names.contains m.1 with
  | [] => .ok ()
  | extra => .error (extra.map fun m => ⟨[m.1], .extraForbidden⟩)

end Fields

/-! ## Rewriting validators -/

def absentTexts : List String := ["", "null", "none", "n/a"]

/-- `ToolArgs._absent_means_none`: for a field that may be absent, a text that says so
means absent. -/
def absentMeansNone (host : Host) (optional : List String) : Value → Value
  | .obj members =>
      .obj (members.map fun m =>
        match m.2 with
        | .str s =>
            if optional.contains m.1 &&
                absentTexts.any fun t => t.toList == host.lower (strip s.toList) then
              (m.1, .null)
            else m
        | _ => m)
  | v => v

/-- Python's truth value. -/
def truthy : Value → Bool
  | .null => false
  | .bool b => b
  | .num (.int z) => z != 0
  | .num (.float (.finite x)) => x.mantissa != 0
  | .num (.float _) => true
  | .str s => s != ""
  | .arr items => !items.isEmpty
  | .obj members => !members.isEmpty

/-- `{**members, key: value}` -/
def setMember (key : String) (value : Value) : Members → Members
  | [] => [(key, value)]
  | (k, v) :: rest => if k = key then (k, value) :: rest else (k, v) :: setMember key value rest

theorem lookup_setMember (key : String) (value : Value) (other : String) : ∀ members : Members,
    (setMember key value members).lookup other =
      if other = key then some value else members.lookup other
  | [] => by
      rw [setMember, List.lookup_cons]
      by_cases same : other = key
      · rw [if_pos same, same, beq_self_eq_true]
      · rw [if_neg same, beq_false_of_ne same]
  | (k, v) :: rest => by
      rw [setMember]
      by_cases here : k = key
      · subst here
        rw [if_pos rfl, List.lookup_cons, List.lookup_cons]
        by_cases same : other = k
        · rw [if_pos same, same, beq_self_eq_true]
        · rw [if_neg same, beq_false_of_ne same]
      · rw [if_neg here, List.lookup_cons, List.lookup_cons, lookup_setMember key value other rest]
        by_cases same : other = k
        · subst same
          simp [here]
        · rw [beq_false_of_ne same]

/-- `CreateVpnProfileArgs._an_id_is_an_id`: an employee id given as a name is an id. -/
def anIdIsAnId (host : Host) : Value → Value
  | .obj members =>
      let candidate :=
        match members.lookup "employee_name" with
        | some (.str name) => host.upper (strip name.toList)
        | _ => []
      let hasId := ((members.lookup "employee_id").map truthy).getD false
      if matchesEmployeeId candidate && !hasId then
        .obj (setMember "employee_name" .null
          (setMember "employee_id" (.str (String.ofList candidate)) members))
      else .obj members
  | v => v

/-! ## Argument models -/

/-- The validated arguments of each tool. -/
inductive ToolArgs where
  | searchInternalDocs (query : String) (department : Option String)
  | getServerStatus (serverId : String)
  | createSupportTicket (title : String) (severity : Severity) (details : String)
  | getSupportTicket (ticketId : String)
  | createVpnProfile (employeeId employeeName : Option String) (durationDays : Int)

inductive ArgsModel where
  | searchInternalDocs
  | getServerStatus
  | createSupportTicket
  | getSupportTicket
  | createVpnProfile
deriving DecidableEq

/-- The fields a model may leave out. -/
def ArgsModel.optional : ArgsModel → List String
  | .searchInternalDocs => ["department"]
  | .createVpnProfile => ["employee_id", "employee_name", "duration_days"]
  | .getServerStatus | .createSupportTicket | .getSupportTicket => []

/-- The validators that rewrite the input before the fields are checked. -/
def ArgsModel.prepare (host : Host) (model : ArgsModel) (raw : Value) : Value :=
  match model with
  | .createVpnProfile => absentMeansNone host model.optional (anIdIsAnId host raw)
  | _ => absentMeansNone host model.optional raw

/-- The truth value of an optional text. -/
def filled : Option String → Bool
  | none => false
  | some s => s != ""

/-- The fields of a model, in order, and the rule across them. -/
def ArgsModel.fields (host : Host) (members : Members) : ArgsModel → Except (List FieldError) ToolArgs
  | .searchInternalDocs => do
      let ((query, department), _) ← both
        (both (field members "query" { min := some 2, max := some 500 : StringRule }.check)
          (field members "department" (optionalCheck
            { pattern := some ("^[a-z][a-z_]*$", matchesDepartment) : StringRule }.check)
            (some none)))
        (forbidExtra ["query", "department"] members)
      return .searchInternalDocs query department
  | .getServerStatus => do
      let (serverId, _) ← both
        (field members "server_id"
          { min := some 2, max := some 64,
            pattern := some ("^[a-z0-9][a-z0-9.-]*$", matchesServerId) : StringRule }.check)
        (forbidExtra ["server_id"] members)
      return .getServerStatus serverId
  | .createSupportTicket => do
      let ((title, severity, details), _) ← both
        (both (field members "title" { min := some 4, max := some 200 : StringRule }.check)
          (both (field members "severity" severityCheck)
            (field members "details" { min := some 4, max := some 4000 : StringRule }.check)))
        (forbidExtra ["title", "severity", "details"] members)
      return .createSupportTicket title severity details
  | .getSupportTicket => do
      let (ticketId, _) ← both
        (field members "ticket_id"
          { pattern := some ("^INC-[0-9]\x7b1,10\x7d$", matchesTicketId) : StringRule }.check)
        (forbidExtra ["ticket_id"] members)
      return .getSupportTicket ticketId
  | .createVpnProfile => do
      let ((employeeId, employeeName, durationDays), _) ← both
        (both
          (field members "employee_id" (optionalCheck
            { pattern := some ("^U[0-9]\x7b3,\x7d$", matchesEmployeeId) : StringRule }.check)
            (some none))
          (both
            (field members "employee_name" (optionalCheck
              { min := some 2, max := some 100 : StringRule }.check) (some none))
            (field members "duration_days" (intCheck host 1 MAX_VPN_DAYS) (some MAX_VPN_DAYS))))
        (forbidExtra ["employee_id", "employee_name", "duration_days"] members)
      if filled employeeId = filled employeeName then
        throw [⟨[], .valueError "provide exactly one of employee_id or employee_name"⟩]
      return .createVpnProfile employeeId employeeName durationDays

/-- `args_model.model_validate(raw)` -/
def ArgsModel.validate (host : Host) (model : ArgsModel) (raw : Value) :
    Except (List FieldError) ToolArgs :=
  match model.prepare host raw with
  | .obj members => model.fields host members
  | _ => .error [⟨[], .dictType⟩]

/-- `args.model_dump(mode="json")` -/
def ToolArgs.dump : ToolArgs → Value
  | .searchInternalDocs query department =>
      .obj [("query", .str query), ("department", optionalValue department)]
  | .getServerStatus serverId => .obj [("server_id", .str serverId)]
  | .createSupportTicket title severity details =>
      .obj [("title", .str title), ("severity", .str severity.text), ("details", .str details)]
  | .getSupportTicket ticketId => .obj [("ticket_id", .str ticketId)]
  | .createVpnProfile employeeId employeeName durationDays =>
      .obj [("employee_id", optionalValue employeeId),
        ("employee_name", optionalValue employeeName),
        ("duration_days", .num (.int durationDays))]

/-! ## The registry -/

/-- A tool's contract; its skill card for the router is left out. -/
structure ToolSpec where
  name : String
  argsModel : ArgsModel
  requiresPermission : Option String
  sensitive : Bool := false
  approvePermission : Option String := none

def TOOLS : List ToolSpec :=
  [{ name := "search_internal_docs", argsModel := .searchInternalDocs, requiresPermission := none },
    { name := "get_server_status", argsModel := .getServerStatus,
      requiresPermission := some "server:read" },
    { name := "create_support_ticket", argsModel := .createSupportTicket,
      requiresPermission := some "ticket:create" },
    { name := "get_support_ticket", argsModel := .getSupportTicket,
      requiresPermission := some "ticket:create" },
    { name := "create_vpn_profile", argsModel := .createVpnProfile,
      requiresPermission := some "vpn:create", sensitive := true,
      approvePermission := some "vpn:approve" }]

/-- `TOOLS.get(tool)` -/
def findTool (tool : String) : Option ToolSpec := TOOLS.find? fun spec => spec.name == tool

end OpsAssist
