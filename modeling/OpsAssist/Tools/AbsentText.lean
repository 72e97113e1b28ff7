/-
# OpsAssist.Tools.AbsentText -- when a text that says absent means absent

A field that may be left out may hold a text that says it is: `_absent_means_none` makes it
`None`.  `None` is not the same as nothing: `duration_days` has a default and does not admit it,
and an id that says it is absent still keeps an id given as a name from being moved.

`absent_text_iff`: these are the only two ways (`Lost`) in which the text is read otherwise than
as nothing.  Poles: `null_days_refused`, `absent_text_pole`.
-/
import OpsAssist.Theory.Words
import OpsAssist.Tools.Proposals

namespace OpsAssist

set_option autoImplicit false

open Theory Theory.Text Theory.Letters

/-! ## Two validations -/

/-- The same validated arguments, or failure in both cases. -/
def SameResult (a b : Except (List FieldError) ToolArgs) : Prop := ∀ args, a = .ok args ↔ b = .ok args

/-- The object without a key. -/
def removed (key : String) (members : Members) : Members := members.filter fun m => m.1 != key

def VPN_FIELDS : List String := ["employee_id", "employee_name", "duration_days"]

/-- What the surroundings are documented to do with these texts. -/
structure Host.ReadsTexts (host : Host) : Prop where
  /-- a text that says it is absent is no employee id in upper case -/
  absent_no_id : ∀ s, saysAbsent host s = true → spellsId host s = false
  /-- an employee id is in upper case -/
  upper_id : ∀ c, matchesEmployeeId c = true → host.upper c = c
  /-- an integer field does not take `None` -/
  none_no_int : host.laxInt .null = none

section

variable {host : Host} {members : Members} {key other : String}

theorem lookup_removed (members : Members) : (removed key members).lookup other =
    if other = key then none else members.lookup other := by
  induction members with
  | nil => simp [removed]
  | cons m rest ih =>
      obtain ⟨k, v⟩ := m
      by_cases here : k = key
      · have dropped : removed key ((k, v) :: rest) = removed key rest := by simp [removed, here]
        rw [dropped, ih, List.lookup_cons]
        by_cases same : other = key
        · rw [if_pos same, if_pos same]
        · rw [if_neg same, if_neg same, beq_false_of_ne fun eq => same (eq.trans here)]
      · have kept : removed key ((k, v) :: rest) = (k, v) :: removed key rest := by
          simp [removed, here]
        rw [kept, List.lookup_cons, List.lookup_cons, ih]
        by_cases same : other = k
        · simp [same, here]
        · rw [beq_false_of_ne same]

theorem given_removed (members : Members) : given (removed key members) other =
    if other = key then .null else given members other := by
  unfold given
  rw [lookup_removed]
  split <;> rfl

/-- Every key is one of the names. -/
def Known (names : List String) (members : Members) : Prop := ∀ m ∈ members, m.1 ∈ names

theorem forbidExtra_ok {names : List String} :
    forbidExtra names members = .ok () ↔ Known names members := by
  unfold forbidExtra Known
  cases extra : members.filter fun m => !names.contains m.1 with
  | nil =>
      refine iff_of_true rfl fun m mem => ?_
      simpa using List.filter_eq_nil_iff.mp extra m mem
  | cons m rest =>
      refine iff_of_false nofun fun all => ?_
      have mem : m ∈ members.filter fun m => !names.contains m.1 := by
        rw [extra]
        exact List.mem_cons_self
      obtain ⟨there, unknown⟩ := List.mem_filter.mp mem
      simp [all m there] at unknown

theorem known_removed {names : List String} (known : key ∈ names) :
    Known names (removed key members) ↔ Known names members := by
  unfold Known removed
  constructor
  · intro all m mem
    by_cases here : m.1 = key
    · exact here ▸ known
    · exact all m (List.mem_filter.mpr ⟨mem, by simpa using here⟩)
  · exact fun all m mem => all m (List.mem_filter.mp mem).1

theorem known_setMember {names : List String} {v : Value} (known : key ∈ names) :
    ∀ {members : Members}, Known names (setMember key v members) ↔ Known names members
  | [] => by simp [setMember, Known, known]
  | (k, w) :: rest => by
      rw [setMember]
      by_cases here : k = key
      · simp [here, Known]
      · have ih := @known_setMember names v known rest
        unfold Known at ih ⊢
        rw [if_neg here, List.forall_mem_cons, List.forall_mem_cons, ih]

theorem known_map {names : List String} {f : String → Value → Value} :
    Known names (members.map fun m => (m.1, f m.1 m.2)) ↔ Known names members := by
  constructor
  · exact fun all m mem => all (m.1, f m.1 m.2) (List.mem_map.mpr ⟨m, mem, rfl⟩)
  · rintro all _ mem
    obtain ⟨m, there, rfl⟩ := List.mem_map.mp mem
    exact all m there

/-! ## What the fields depend on -/

/-- An optional text field reads what is given of it. -/
theorem optionalField_ok {rule : StringRule} {r : Option String} :
    field members key (optionalCheck rule.check) (some none) = .ok r ↔
      optionalCheck rule.check (given members key) = .ok r := by
  unfold field given
  cases members.lookup key with
  | none => simp [optionalCheck]
  | some v => cases checked : optionalCheck rule.check v <;> simp [checked]

/-- The days are read from what is there of them, or there is the default. -/
def DaysRead (host : Host) : Option Value → Int → Prop
  | none, days => days = MAX_VPN_DAYS
  | some v, days => intCheck host 1 MAX_VPN_DAYS v = .ok days

theorem daysField_ok {days : Int} :
    field members "duration_days" (intCheck host 1 MAX_VPN_DAYS) (some MAX_VPN_DAYS) = .ok days ↔
      DaysRead host (members.lookup "duration_days") days := by
  unfold field DaysRead
  cases members.lookup "duration_days" with
  | none => simp [eq_comm]
  | some v => cases checked : intCheck host 1 MAX_VPN_DAYS v <;> simp [checked]

/-- What is read of the two fields that name the employee, each as it is given. -/
def SubjectRead (host : Host) (idGiven nameGiven : Value) (id name : Option String) : Prop :=
  optionalCheck employeeIdRule.check
      (cleared host ArgsModel.createVpnProfile.optional "employee_id" idGiven) = .ok id ∧
    optionalCheck employeeNameRule.check
      (cleared host ArgsModel.createVpnProfile.optional "employee_name" nameGiven) = .ok name ∧
    filled id ≠ filled name

/-- An id is given as a name, and no other id. -/
def moves (host : Host) (idGiven nameGiven : Value) : Option String :=
  match nameGiven with
  | .str n =>
      if spellsId host n && !truthy idGiven then some (String.ofList (host.upper (strip n.toList)))
      else none
  | _ => none

theorem moves_str (idGiven : Value) (n : String) : moves host idGiven (.str n) =
    if spellsId host n && !truthy idGiven then some (String.ofList (host.upper (strip n.toList)))
    else none := rfl

/-- The same, once an id has been moved. -/
def EmployeeRead (host : Host) (idGiven nameGiven : Value) (id name : Option String) : Prop :=
  match moves host idGiven nameGiven with
  | some moved => SubjectRead host (.str moved) .null id name
  | none => SubjectRead host idGiven nameGiven id name

/-- The members after an id has been moved, if it is. -/
def movedMembers (members : Members) : Option String → Members
  | some id => setMember "employee_name" .null (setMember "employee_id" (.str id) members)
  | none => members

theorem anIdIsAnId_eq (members : Members) : anIdIsAnId host (.obj members) =
    .obj (movedMembers members
      (moves host (given members "employee_id") (given members "employee_name"))) := by
  have id_truthy : ((members.lookup "employee_id").map truthy).getD false =
      truthy (given members "employee_id") := by
    unfold given
    cases members.lookup "employee_id" <;> rfl
  unfold anIdIsAnId
  dsimp only
  rw [id_truthy]
  generalize given members "employee_id" = idGiven
  unfold given moves
  cases members.lookup "employee_name" with
  | none => rfl
  | some v =>
      cases v with
      | str n =>
          simp only [Option.getD_some]
          change (if spellsId host n && !truthy idGiven then _ else _) = _
          cases spellsId host n && !truthy idGiven <;> rfl
      | _ => rfl

/-- **What the validation of a profile's arguments depends on**: the keys, the days, and what is
given of the two fields that name the employee, once an id has been moved. -/
theorem validate_vpn_ok_iff {args : ToolArgs} :
    ArgsModel.createVpnProfile.validate host (.obj members) = .ok args ↔
      Known VPN_FIELDS members ∧ ∃ id name days, args = .createVpnProfile id name days ∧
        DaysRead host ((members.lookup "duration_days").map
          (cleared host ArgsModel.createVpnProfile.optional "duration_days")) days ∧
        EmployeeRead host (given members "employee_id") (given members "employee_name") id name := by
  unfold EmployeeRead
  rw [validate_vpn_eq, anIdIsAnId_eq]
  dsimp only
  rw [vpnFields_ok]
  simp only [optionalField_ok, daysField_ok, given_cleared, forbidExtra_ok]
  have known : ∀ o, Known VPN_FIELDS (vpnMembers host (movedMembers members o)) ↔
      Known VPN_FIELDS members := by
    intro o
    refine known_map.trans ?_
    cases o with
    | none => rfl
    | some id =>
        exact (known_setMember (by decide)).trans (known_setMember (by decide))
  have days : ∀ o, (vpnMembers host (movedMembers members o)).lookup "duration_days" =
      (members.lookup "duration_days").map
        (cleared host ArgsModel.createVpnProfile.optional "duration_days") := by
    intro o
    unfold vpnMembers
    rw [lookup_map]
    cases o with
    | none => rfl
    | some id =>
        rw [movedMembers, lookup_setMember, if_neg (by decide), lookup_setMember,
          if_neg (by decide)]
  cases moved : moves host (given members "employee_id") (given members "employee_name") with
  | none =>
      constructor
      · rintro ⟨id, name, d, rfl, first, second, third, extra, one⟩
        exact ⟨(known none).mp extra, id, name, d, rfl, days none ▸ third, first, second, one⟩
      · rintro ⟨extra, id, name, d, rfl, third, first, second, one⟩
        exact ⟨id, name, d, rfl, first, second, days none ▸ third, (known none).mpr extra, one⟩
  | some id' =>
      have idThere : given (movedMembers members (some id')) "employee_id" = .str id' := by
        unfold given
        rw [movedMembers, lookup_setMember, if_neg (by decide), lookup_setMember, if_pos rfl]
        rfl
      have nameGone : given (movedMembers members (some id')) "employee_name" = .null := by
        unfold given
        rw [movedMembers, lookup_setMember, if_pos rfl]
        rfl
      rw [idThere, nameGone]
      constructor
      · rintro ⟨id, name, d, rfl, first, second, third, extra, one⟩
        exact ⟨(known _).mp extra, id, name, d, rfl, days (some id') ▸ third, first, second, one⟩
      · rintro ⟨extra, id, name, d, rfl, third, first, second, one⟩
        exact ⟨id, name, d, rfl, first, second, days (some id') ▸ third, (known _).mpr extra, one⟩

/-! ## The other model with an optional field -/

def departmentRule : StringRule := { pattern := some ("^[a-z][a-z_]*$", matchesDepartment) }

theorem searchFields_ok {args : ToolArgs} :
    ArgsModel.fields host members .searchInternalDocs = .ok args ↔
      ∃ query department, args = .searchInternalDocs query department ∧
        field members "query" { min := some 2, max := some 500 : StringRule }.check = .ok query ∧
        field members "department" (optionalCheck departmentRule.check) (some none) =
          .ok department ∧
        forbidExtra ["query", "department"] members = .ok () := by
  show (Except.bind (both
    (both (field members "query" { min := some 2, max := some 500 : StringRule }.check)
      (field members "department" (optionalCheck departmentRule.check) (some none)))
    (forbidExtra ["query", "department"] members)) _) = _ ↔ _
  constructor
  · intro done
    cases parts : both
        (both (field members "query" { min := some 2, max := some 500 : StringRule }.check)
          (field members "department" (optionalCheck departmentRule.check) (some none)))
        (forbidExtra ["query", "department"] members) with
    | error errors => rw [parts] at done; cases done
    | ok read =>
        rw [parts] at done
        obtain ⟨⟨query, department⟩, _⟩ := read
        obtain ⟨fields, extra⟩ := both_ok.mp parts
        obtain ⟨first, second⟩ := both_ok.mp fields
        exact ⟨query, department, (Except.ok.inj done).symm, first, second, extra⟩
  · rintro ⟨query, department, rfl, first, second, extra⟩
    rw [both_ok.mpr ⟨both_ok.mpr ⟨first, second⟩, extra⟩]
    rfl

theorem validate_search_ok_iff {args : ToolArgs} :
    ArgsModel.searchInternalDocs.validate host (.obj members) = .ok args ↔
      Known ["query", "department"] members ∧ ∃ query department,
        args = .searchInternalDocs query department ∧
        (∃ v, members.lookup "query" = some v ∧
          ({ min := some 2, max := some 500 : StringRule }.check
            (cleared host ["department"] "query" v)) = .ok query) ∧
        optionalCheck departmentRule.check
          (cleared host ["department"] "department" (given members "department")) =
            .ok department := by
  unfold ArgsModel.validate ArgsModel.prepare
  dsimp only
  rw [absentMeansNone_eq]
  dsimp only
  rw [searchFields_ok]
  simp only [optionalField_ok, forbidExtra_ok, known_map, ArgsModel.optional]
  have departments : given (members.map fun m => (m.1, cleared host ["department"] m.1 m.2))
      "department" = cleared host ["department"] "department" (given members "department") := by
    unfold given
    rw [lookup_map]
    cases members.lookup "department" <;> rfl
  have queries : ∀ query, field (members.map fun m => (m.1, cleared host ["department"] m.1 m.2))
      "query" { min := some 2, max := some 500 : StringRule }.check = .ok query ↔
      ∃ v, members.lookup "query" = some v ∧
        ({ min := some 2, max := some 500 : StringRule }.check
          (cleared host ["department"] "query" v)) = .ok query := by
    intro query
    unfold field
    rw [lookup_map]
    cases members.lookup "query" with
    | none => simp
    | some v =>
        simp only [Option.map_some, Option.some.injEq, exists_eq_left']
        generalize StringRule.check _ (cleared host ["department"] "query" v) = checked
        cases checked <;> simp
  rw [departments]
  simp only [queries]
  constructor
  · rintro ⟨query, department, rfl, first, second, extra⟩
    exact ⟨extra, query, department, rfl, first, second⟩
  · rintro ⟨extra, query, department, rfl, first, second⟩
    exact ⟨query, department, rfl, first, second, extra⟩

/-! ## Where the text is lost -/

/-- The fields that name the employee are read without an error. -/
def SubjectFits (host : Host) (members : Members) : Prop :=
  ∃ id name,
    EmployeeRead host (given members "employee_id") (given members "employee_name") id name

/-- The days are. -/
def DaysFit (host : Host) (members : Members) : Prop :=
  ∃ days, DaysRead host ((members.lookup "duration_days").map
    (cleared host ArgsModel.createVpnProfile.optional "duration_days")) days

/-- The arguments of a profile are valid but for the text: it stands for the days; or it stands,
and is not empty, for the id beside an id that is given as a name. -/
def Lost (host : Host) (model : ArgsModel) (members : Members) (key s : String) : Prop :=
  model = .createVpnProfile ∧ Known VPN_FIELDS members ∧
    (key = "duration_days" ∧ SubjectFits host members ∨
      key = "employee_id" ∧ s ≠ "" ∧ DaysFit host members ∧
        ∃ n, given members "employee_name" = .str n ∧ spellsId host n = true)

theorem cleared_absent {optional : List String} {s : String} (known : optional.contains key = true)
    (absent : saysAbsent host s = true) : cleared host optional key (.str s) = .null := by
  rw [cleared_text, known, absent]
  rfl

/-- Members with the same readings have the same result. -/
theorem sameResult_of_readings {others : Members}
    (known : Known VPN_FIELDS others ↔ Known VPN_FIELDS members)
    (days : others.lookup "duration_days" = members.lookup "duration_days")
    (subject : ∀ id name,
      EmployeeRead host (given members "employee_id") (given members "employee_name") id name ↔
        EmployeeRead host (given others "employee_id") (given others "employee_name") id name) :
    SameResult (ArgsModel.createVpnProfile.validate host (.obj members))
      (ArgsModel.createVpnProfile.validate host (.obj others)) := by
  intro args
  rw [validate_vpn_ok_iff, validate_vpn_ok_iff, known, days]
  simp only [subject]

/-! ## The three fields -/

theorem strip_solid {text : List Char} (solid : ∀ c ∈ text, isSpace c = false) :
    strip text = text := by
  obtain ⟨lead, tail, shape, front, back⟩ := strip_shape text
  have none_blank : ∀ {part : List Char}, part ⊆ text → (∀ c ∈ part, isSpace c = true) →
      part = [] := by
    intro part inside blank
    cases part with
    | nil => rfl
    | cons c rest =>
        have one := solid c (inside List.mem_cons_self)
        rw [blank c List.mem_cons_self] at one
        cases one
  have front_nil := none_blank (fun c mem => shape ▸ by simp [mem]) front
  have back_nil := none_blank (fun c mem => shape ▸ by simp [mem]) back
  rw [front_nil, back_nil, List.nil_append, List.append_nil] at shape
  exact shape.symm

theorem employeeId_solid {c : List Char} (format : matchesEmployeeId c = true) :
    ∀ x ∈ c, isSpace x = false := by
  unfold matchesEmployeeId at format
  split at format
  · rename_i digits
    rw [Bool.and_eq_true, List.all_eq_true] at format
    intro x mem
    rcases List.mem_cons.mp mem with rfl | mem
    · decide
    · have digit := format.1 x mem
      unfold isDigit09 at digit
      simp only [Bool.and_eq_true, decide_eq_true_eq] at digit
      have low : 48 ≤ x.toNat := digit.1
      have high : x.toNat ≤ 57 := digit.2
      unfold isSpace
      simp only [Bool.or_eq_false_iff, Bool.and_eq_false_iff, decide_eq_false_iff_not,
        beq_eq_false_iff_ne]
      omega
  · cases format

section

variable {s : String} (documented : host.ReadsTexts) (absent : saysAbsent host s = true)

include documented absent

theorem moves_absent_name {idGiven : Value} : moves host idGiven (.str s) = none := by
  rw [moves_str, documented.absent_no_id s absent]
  rfl

/-- A name that says it is absent is no name. -/
theorem employeeRead_absent_name {idGiven : Value} {id name : Option String} :
    EmployeeRead host idGiven (.str s) id name ↔ EmployeeRead host idGiven .null id name := by
  unfold EmployeeRead
  rw [moves_absent_name documented absent]
  show SubjectRead host idGiven (.str s) id name ↔ SubjectRead host idGiven .null id name
  unfold SubjectRead
  rw [cleared_absent rfl absent]
  rfl

omit documented in
/-- An id that says it is absent is no id, where no name is to be moved, or it is empty. -/
theorem employeeRead_absent_id {nameGiven : Value} {id name : Option String}
    (quiet : s = "" ∨ ∀ n, nameGiven = .str n → spellsId host n = false) :
    EmployeeRead host (.str s) nameGiven id name ↔ EmployeeRead host .null nameGiven id name := by
  have moved : moves host (.str s) nameGiven = moves host .null nameGiven := by
    cases nameGiven with
    | str n =>
        rcases quiet with rfl | plain
        · rfl
        · rw [moves_str, moves_str, plain n rfl]
          rfl
    | _ => rfl
  unfold EmployeeRead
  rw [moved]
  cases moves host .null nameGiven with
  | some c => rfl
  | none =>
      show SubjectRead host (.str s) nameGiven id name ↔ SubjectRead host .null nameGiven id name
      unfold SubjectRead
      rw [cleared_absent rfl absent]
      rfl

omit absent in
/-- A moved id is read. -/
theorem employeeRead_moved {n : String} (spelled : spellsId host n = true) :
    ∃ i, ∀ id name, EmployeeRead host .null (.str n) id name ↔ id = some i ∧ name = none := by
  refine ⟨String.ofList (host.upper (strip n.toList)), fun id name => ?_⟩
  have moved : moves host .null (.str n) = some (String.ofList (host.upper (strip n.toList))) := by
    rw [moves_str, spelled]
    rfl
  unfold EmployeeRead
  rw [moved]
  have format : matchesEmployeeId (host.upper (strip n.toList)) = true := spelled
  generalize host.upper (strip n.toList) = c at format
  have present : saysAbsent host (String.ofList c) = false := by
    by_contra absent
    have plain := documented.absent_no_id (String.ofList c) (by simpa using absent)
    rw [spellsId, String.toList_ofList, strip_solid (employeeId_solid format),
      documented.upper_id c format, format] at plain
    cases plain
  have checked : employeeIdRule.check (.str (String.ofList c)) = .ok (String.ofList c) := by
    simp [employeeIdRule, StringRule.check, format]
  have nonempty : String.ofList c ≠ "" := employeeId_nonempty checked
  have kept : cleared host ArgsModel.createVpnProfile.optional "employee_id"
      (.str (String.ofList c)) = .str (String.ofList c) := by
    rw [cleared_text, present, Bool.and_false]
    rfl
  show SubjectRead host (.str (String.ofList c)) .null id name ↔ _
  unfold SubjectRead
  rw [kept]
  simp only [optionalCheck, checked, Except.map, Except.ok.injEq]
  constructor
  · rintro ⟨first, second, -⟩
    exact ⟨first.symm, (Except.ok.inj second).symm⟩
  · rintro ⟨rfl, rfl⟩
    exact ⟨rfl, rfl, by rw [filled_some nonempty]; decide⟩

end

section

variable {s : String} (documented : host.ReadsTexts) (absent : saysAbsent host s = true)

include documented absent

/-- No days are read from a text that says there are none. -/
theorem days_lost (there : members.lookup "duration_days" = some (.str s)) {args : ToolArgs} :
    ArgsModel.createVpnProfile.validate host (.obj members) ≠ .ok args := by
  intro validated
  obtain ⟨-, id, name, days, -, read, -⟩ := validate_vpn_ok_iff.mp validated
  rw [there, Option.map_some, cleared_absent rfl absent, DaysRead, intCheck,
    documented.none_no_int] at read
  cases read

theorem days_iff (there : members.lookup "duration_days" = some (.str s)) :
    SameResult (ArgsModel.createVpnProfile.validate host (.obj members))
        (ArgsModel.createVpnProfile.validate host (.obj (removed "duration_days" members))) ↔
      ¬(Known VPN_FIELDS members ∧ SubjectFits host members) := by
  have without : ∀ args,
      ArgsModel.createVpnProfile.validate host (.obj (removed "duration_days" members)) = .ok args ↔
        Known VPN_FIELDS members ∧ ∃ id name, args = .createVpnProfile id name MAX_VPN_DAYS ∧
          EmployeeRead host (given members "employee_id") (given members "employee_name") id name := by
    intro args
    rw [validate_vpn_ok_iff, known_removed (by decide), lookup_removed, if_pos rfl, given_removed,
      given_removed, if_neg (by decide), if_neg (by decide)]
    refine and_congr_right fun _ => ?_
    constructor
    · rintro ⟨id, name, days, rfl, rfl, read⟩
      exact ⟨id, name, rfl, read⟩
    · rintro ⟨id, name, rfl, read⟩
      exact ⟨id, name, _, rfl, rfl, read⟩
  constructor
  · rintro same ⟨known, id, name, read⟩
    exact days_lost documented absent there
      ((same _).mpr ((without _).mpr ⟨known, id, name, rfl, read⟩))
  · intro lost args
    refine iff_of_false (days_lost documented absent there) fun validated => lost ?_
    obtain ⟨known, id, name, -, read⟩ := (without args).mp validated
    exact ⟨known, id, name, read⟩

theorem name_same (there : members.lookup "employee_name" = some (.str s)) :
    SameResult (ArgsModel.createVpnProfile.validate host (.obj members))
      (ArgsModel.createVpnProfile.validate host (.obj (removed "employee_name" members))) := by
  refine sameResult_of_readings (known_removed (by decide)) ?_ fun id name => ?_
  · rw [lookup_removed, if_neg (by decide)]
  · have text : given members "employee_name" = .str s := by
      unfold given
      rw [there]
      rfl
    rw [given_removed, given_removed, if_neg (by decide), if_pos rfl, text]
    exact employeeRead_absent_name documented absent

theorem id_iff (there : members.lookup "employee_id" = some (.str s)) :
    SameResult (ArgsModel.createVpnProfile.validate host (.obj members))
        (ArgsModel.createVpnProfile.validate host (.obj (removed "employee_id" members))) ↔
      ¬(Known VPN_FIELDS members ∧ s ≠ "" ∧ DaysFit host members ∧
        ∃ n, given members "employee_name" = .str n ∧ spellsId host n = true) := by
  have text : given members "employee_id" = .str s := by
    unfold given
    rw [there]
    rfl
  by_cases quiet : s = "" ∨ ∀ n, given members "employee_name" = .str n → spellsId host n = false
  · refine iff_of_true ?_ ?_
    · refine sameResult_of_readings (known_removed (by decide)) ?_ fun id name => ?_
      · rw [lookup_removed, if_neg (by decide)]
      · rw [given_removed, given_removed, if_pos rfl, if_neg (by decide), text]
        exact employeeRead_absent_id absent quiet
    · rintro ⟨-, some_text, -, n, named, spelled⟩
      rcases quiet with empty | plain
      · exact some_text empty
      · rw [plain n named] at spelled
        cases spelled
  · -- the name is moved only where there is no id at all
    simp only [not_or, not_forall] at quiet
    obtain ⟨some_text, n, named, spelled⟩ := quiet
    have spelled : spellsId host n = true := by simpa using spelled
    obtain ⟨i, moved⟩ := employeeRead_moved documented spelled
    have stays : ∀ id name, EmployeeRead host (.str s) (.str n) id name →
        id = none ∧ name ≠ none := by
      intro id name read
      have none_moved : moves host (.str s) (.str n) = none := by
        have truth : truthy (.str s) = true := by simpa [truthy] using some_text
        rw [moves_str, truth, Bool.not_true, Bool.and_false]
        rfl
      unfold EmployeeRead at read
      rw [none_moved] at read
      obtain ⟨first, second, one⟩ := read
      rw [cleared_absent rfl absent] at first
      obtain rfl : none = id := Except.ok.inj first
      refine ⟨rfl, ?_⟩
      rintro rfl
      exact one rfl
    have without : ∀ args,
        ArgsModel.createVpnProfile.validate host (.obj (removed "employee_id" members)) = .ok args ↔
          Known VPN_FIELDS members ∧ ∃ days, args = .createVpnProfile (some i) none days ∧
            DaysRead host ((members.lookup "duration_days").map
              (cleared host ArgsModel.createVpnProfile.optional "duration_days")) days := by
      intro args
      rw [validate_vpn_ok_iff, known_removed (by decide), lookup_removed, if_neg (by decide),
        given_removed, given_removed, if_pos rfl, if_neg (by decide), named]
      simp only [moved]
      refine and_congr_right fun _ => ?_
      constructor
      · rintro ⟨id, name, days, rfl, read, rfl, rfl⟩
        exact ⟨days, rfl, read⟩
      · rintro ⟨days, rfl, read⟩
        exact ⟨_, _, days, rfl, read, rfl, rfl⟩
    constructor
    · rintro same ⟨known, -, ⟨days, read⟩, -⟩
      have both := (same _).mpr ((without _).mpr ⟨known, days, rfl, read⟩)
      obtain ⟨-, id, name, days', args, -, read'⟩ := validate_vpn_ok_iff.mp both
      rw [text, named] at read'
      cases args
      exact absurd (stays _ _ read').1 (Option.some_ne_none _)
    · intro lost args
      refine iff_of_false (fun validated => lost ?_) fun validated => lost ?_
      · obtain ⟨known, id, name, days, -, read, -⟩ := validate_vpn_ok_iff.mp validated
        exact ⟨known, some_text, ⟨days, read⟩, n, named, spelled⟩
      · obtain ⟨known, days, -, read⟩ := (without args).mp validated
        exact ⟨known, some_text, ⟨days, read⟩, n, named, spelled⟩

omit documented in
theorem department_same (there : members.lookup "department" = some (.str s)) :
    SameResult (ArgsModel.searchInternalDocs.validate host (.obj members))
      (ArgsModel.searchInternalDocs.validate host (.obj (removed "department" members))) := by
  intro args
  have text : given members "department" = .str s := by
    unfold given
    rw [there]
    rfl
  rw [validate_search_ok_iff, validate_search_ok_iff, known_removed (by decide), lookup_removed,
    if_neg (by decide), given_removed, if_pos rfl, text, cleared_absent rfl absent]
  rfl

end

end

/-- **A text that says absent is read as nothing, but for two ways in which it is lost.** -/
theorem absent_text_iff (host : Host) (model : ArgsModel) (members : Members) (key s : String)
    (documented : host.ReadsTexts) (optional : key ∈ model.optional)
    (there : members.lookup key = some (.str s)) (absent : saysAbsent host s = true) :
    SameResult (model.validate host (.obj members)) (model.validate host (.obj (removed key members))) ↔
      ¬Lost host model members key s := by
  unfold Lost
  cases model with
  | searchInternalDocs =>
      obtain rfl := List.mem_singleton.mp optional
      exact iff_of_true (department_same absent there) fun lost => nomatch lost.1
  | createVpnProfile =>
      simp only [ArgsModel.optional, List.mem_cons, List.not_mem_nil, or_false] at optional
      rcases optional with rfl | rfl | rfl
      · simpa using id_iff documented absent there
      · simpa using name_same documented absent there
      · simpa using days_iff documented absent there
  | getServerStatus => cases optional
  | createSupportTicket => cases optional
  | getSupportTicket => cases optional

/-! ## Poles -/

theorem toUpper_eq_U {c : Char} (upper : c.toUpper = 'U') : c.toLower = 'u' := by
  cases small : c.isLower with
  | true => exact lower_induction (fun c => c.toUpper = 'U' → c.toLower = 'u') (by decide) small upper
  | false =>
      rw [toUpper_same small] at upper
      subst upper
      decide

theorem toUpper_digit {c : Char} (digit : isDigit09 c = true) : c.toUpper = c := by
  rw [isDigit09, Bool.and_eq_true, decide_eq_true_iff, decide_eq_true_iff] at digit
  exact toUpper_same (digit_not_lower (isDigit_iff.mpr digit))

theorem plain_readsTexts : Host.plain.ReadsTexts where
  absent_no_id s absent := by
    by_contra spelled
    have format : matchesEmployeeId ((strip s.toList).map Char.toUpper) = true := by
      simpa [spellsId, Host.plain] using spelled
    obtain ⟨t, mem, same⟩ := List.any_eq_true.mp absent
    have letters : t.toList = (strip s.toList).map Char.toLower := by
      simpa [Host.plain] using same
    cases text : strip s.toList with
    | nil => simp [text, matchesEmployeeId] at format
    | cons c rest =>
        rw [text, List.map_cons] at format letters
        have capital : c.toUpper = 'U' := by
          unfold matchesEmployeeId at format
          split at format
          · rename_i eq
            exact (List.cons.inj eq).1
          · cases format
        rw [toUpper_eq_U capital] at letters
        have others : ∀ t ∈ absentTexts, t.toList.head? ≠ some 'u' := by decide
        exact others t mem (by rw [letters]; rfl)
  upper_id c format := by
    unfold matchesEmployeeId at format
    split at format
    · rename_i digits
      rw [Bool.and_eq_true, List.all_eq_true] at format
      show ('U' :: digits).map Char.toUpper = 'U' :: digits
      rw [List.map_cons, List.map_congr_left fun d mem => toUpper_digit (format.1 d mem)]
      simp
    · cases format
  none_no_int := rfl

/-- The days are refused, not left to the default. -/
theorem null_days_refused :
    saysAbsent Host.plain "null" = true ∧
      ¬SameResult
        (ArgsModel.createVpnProfile.validate Host.plain
          (.obj [("employee_id", .str "U006"), ("duration_days", .str "null")]))
        (ArgsModel.createVpnProfile.validate Host.plain
          (.obj (removed "duration_days"
            [("employee_id", .str "U006"), ("duration_days", .str "null")]))) := by
  refine ⟨by decide, fun same => ?_⟩
  have absent : saysAbsent Host.plain "null" = true := by decide
  have given_ : ArgsModel.createVpnProfile.validate Host.plain
      (.obj (removed "duration_days"
        [("employee_id", .str "U006"), ("duration_days", .str "null")])) =
      .ok (.createVpnProfile (some "U006") none 30) := rfl
  exact days_lost plain_readsTexts absent rfl ((same _).mpr given_)

/-- A name that says it is absent is read as none. -/
theorem absent_text_pole : SameResult
    (ArgsModel.createVpnProfile.validate Host.plain
      (.obj [("employee_id", .str "U006"), ("employee_name", .str " N/A ")]))
    (ArgsModel.createVpnProfile.validate Host.plain
      (.obj (removed "employee_name"
        [("employee_id", .str "U006"), ("employee_name", .str " N/A ")]))) := by
  refine (absent_text_iff Host.plain .createVpnProfile _ "employee_name" " N/A " plain_readsTexts
    (by decide) rfl (by decide)).mpr ?_
  rintro ⟨-, -, ⟨days, -⟩ | ⟨id, -⟩⟩
  · exact absurd days (by decide)
  · exact absurd id (by decide)

end OpsAssist
