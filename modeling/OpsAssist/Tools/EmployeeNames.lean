/-
# OpsAssist.Tools.EmployeeNames -- whom a name denotes

A profile is made for the employee a name denotes: the one whose name holds it.  The database
looks for the name as a pattern.

`name_only_theirs_iff`: in every table the employee found is the one whose name it is, exactly
for names without `%`, `_` and `\`; any other name finds someone in some table who does not
have it.  Poles: `wildcard_finds_another`, `name_only_theirs_pole`.
-/
import OpsAssist.Theory.Like
import OpsAssist.Tools.Executor

namespace OpsAssist

set_option autoImplicit false

open Theory Theory.Text Theory.Letters

/-! ## Whose name it is -/

/-- The name as it is looked for: stripped and in lower case. -/
def soughtName (host : Host) (name : String) : List Char := host.lower (strip name.toList)

/-- The employees whose lower-cased name holds the name as it stands. -/
def holders (host : Host) (name : String) (users : List User) : List User :=
  users.filter fun u => contains (soughtName host name) (host.lower u.name.toList)

/-- An employee is resolved by name only when the name really is theirs, and theirs alone. -/
structure OnlyTheirs (host : Host) (name : String) (db : Db) : Prop where
  theirs : ∀ user, resolveEmployee host none (some name) db = .ok user →
    holders host name db.users = [user]
  refused : (∀ user, holders host name db.users ≠ [user]) →
    ∃ text, resolveEmployee host none (some name) db = .error text

/-- The database and the program lower these names alike. -/
def LoweredAlike (host : Host) (users : List User) : Prop :=
  ∀ u ∈ users, host.sqlLower u.name.toList = host.lower u.name.toList

/-- Lower case stays as it is, in the program and in the database. -/
structure Host.KeepsLowerCase (host : Host) : Prop where
  settled : ∀ s t, (∀ c ∈ t, c ∈ host.lower s ∨ c = 'a' ∨ c = '%') →
    host.lower t = t ∧ host.sqlLower t = t

section

variable {host : Host} {name : String} {db : Db}

/-- The employees the database finds. -/
def patternMatches (host : Host) (name : String) (users : List User) : List User :=
  users.filter fun u => like ('%' :: soughtName host name ++ ['%']) (host.sqlLower u.name.toList)

/-- By name: the only employee found, or an error. -/
theorem resolveEmployee_name : resolveEmployee host none (some name) db =
    match patternMatches host name db.users with
    | [] => .error ("no employee named " ++ host.repr name)
    | [user] => .ok user
    | found =>
        .error (host.repr name ++ " matches " ++ toString found.length ++
          " employees; ask for the employee id") := by
  unfold resolveEmployee
  rw [if_neg (by simp [filled])]
  show (match patternMatches host name db.users with
    | [] => Except.error ("no employee named " ++ host.repr name)
    | [user] => Except.ok user
    | _ =>
        Except.error (host.repr name ++ " matches " ++
          toString (patternMatches host name db.users).length ++
          " employees; ask for the employee id")) = _
  cases patternMatches host name db.users with
  | nil => rfl
  | cons user others => cases others <;> rfl

theorem resolveEmployee_ok_iff {user : User} :
    resolveEmployee host none (some name) db = .ok user ↔
      patternMatches host name db.users = [user] := by
  rw [resolveEmployee_name]
  split
  · rename_i found
    simp [found]
  · rename_i only found
    simp [found]
  · rename_i neither
    exact iff_of_false nofun (neither user)

/-- Without wildcards the database finds the employees whose name it is. -/
theorem patternMatches_eq_holders (literal : ∀ c ∈ soughtName host name, Literal c)
    {users : List User} (alike : LoweredAlike host users) :
    patternMatches host name users = holders host name users := by
  refine List.filter_congr fun u mem => ?_
  rw [like_anywhere literal, alike u mem]

theorem onlyTheirs_of_literal (literal : ∀ c ∈ soughtName host name, Literal c)
    (alike : LoweredAlike host db.users) : OnlyTheirs host name db := by
  have same := patternMatches_eq_holders literal alike
  constructor
  · intro user resolved
    rw [← same]
    exact resolveEmployee_ok_iff.mp resolved
  · intro none_only
    cases resolved : resolveEmployee host none (some name) db with
    | error text => exact ⟨text, rfl⟩
    | ok user => exact absurd (same ▸ resolveEmployee_ok_iff.mp resolved) (none_only user)

/-! ## Names with wildcards -/

/-- One employee, and no other rows. -/
def staffOf (name : String) : Db where
  users := [{ id := "U002", name, department := "hr", role := "employee", permissions := [],
              isActive := true }]
  servers := []
  tickets := []
  vpnProfiles := []
  pendingActions := []
  auditLog := []

theorem resolved_in_staffOf {other : String}
    (found : like ('%' :: soughtName host name ++ ['%']) (host.sqlLower other.toList) = true) :
    ∃ user, resolveEmployee host none (some name) (staffOf other) = .ok user := by
  refine ⟨(staffOf other).users.head (List.cons_ne_nil _ _), resolveEmployee_ok_iff.mpr ?_⟩
  exact List.filter_cons_of_pos found

/-- A name with a wildcard finds an employee who does not have it. -/
theorem wildcard_finds (documented : host.KeepsLowerCase)
    (wild : ∃ c ∈ soughtName host name, ¬Literal c) :
    ∃ db, LoweredAlike host db.users ∧ ¬OnlyTheirs host name db := by
  have chars := mem_specimen (soughtName host name)
  obtain ⟨lower, sqlLower⟩ := documented.settled (strip name.toList) _ chars
  have found : like ('%' :: soughtName host name ++ ['%']) (specimen (soughtName host name)) =
      true := by
    rw [List.cons_append, like_between, List.any_eq_true]
    refine ⟨specimen (soughtName host name), ?_, like_specimen _⟩
    cases specimen (soughtName host name) <;> simp
  have without := specimen_not_holding wild
  generalize specimen (soughtName host name) = text at lower sqlLower found without
  refine ⟨staffOf (String.ofList text), ?_, fun only => ?_⟩
  · intro u mem
    rw [List.mem_singleton.mp mem, String.toList_ofList, lower, sqlLower]
  · obtain ⟨user, resolved⟩ := @resolved_in_staffOf host name (String.ofList text)
      (by rw [String.toList_ofList, sqlLower]; exact found)
    have held := only.theirs user resolved
    have nobody : holders host name (staffOf (String.ofList text)).users = [] := by
      refine List.filter_eq_nil_iff.mpr fun u mem => ?_
      rw [List.mem_singleton.mp mem, String.toList_ofList, lower, without]
      exact Bool.false_ne_true
    rw [nobody] at held
    cases held

/-- **In every table the employee a name resolves to is the one whose name it is, if and only if
the name holds no `%`, `_` or `\`.** -/
theorem name_only_theirs_iff (host : Host) (documented : host.KeepsLowerCase) (name : String) :
    (∀ db, LoweredAlike host db.users → OnlyTheirs host name db) ↔
      ∀ c ∈ soughtName host name, Literal c := by
  constructor
  · intro only c mem
    by_contra wild
    obtain ⟨db, alike, broken⟩ := wildcard_finds documented ⟨c, mem, wild⟩
    exact broken (only db alike)
  · exact fun literal db alike => onlyTheirs_of_literal literal alike

end

/-! ## Poles -/

theorem plain_keepsLowerCase : Host.plain.KeepsLowerCase where
  settled s t chars := by
    have same : t.map Char.toLower = t := by
      refine List.map_congr_left (fun c mem => ?_) |>.trans (List.map_id t)
      rcases chars c mem with lowered | rfl | rfl
      · obtain ⟨d, -, rfl⟩ := List.mem_map.mp lowered
        exact toLower_toLower d
      · decide
      · decide
    exact ⟨same, same⟩

/-- The underscore stands for any letter: the schema admits the name, and it is another's. -/
theorem wildcard_finds_another :
    ArgsModel.createVpnProfile.validate Host.plain (.obj [("employee_name", .str "L_n")]) =
      .ok (.createVpnProfile none (some "L_n") 30) ∧
    ¬OnlyTheirs Host.plain "L_n" (staffOf "Lan Pham") := by
  refine ⟨rfl, fun only => ?_⟩
  have found : like ('%' :: soughtName Host.plain "L_n" ++ ['%'])
      (Host.plain.sqlLower "Lan Pham".toList) = true := by decide
  obtain ⟨user, resolved⟩ := resolved_in_staffOf found
  have held := only.theirs user resolved
  have nobody : holders Host.plain "L_n" (staffOf "Lan Pham").users = [] := by decide
  rw [nobody] at held
  cases held

/-- A name without wildcards is only theirs whose it is. -/
theorem name_only_theirs_pole : OnlyTheirs Host.plain " Lan" (staffOf "Lan Pham") := by
  have literal : (soughtName Host.plain " Lan").all (fun c => decide (Literal c)) = true := by decide
  refine (name_only_theirs_iff Host.plain plain_keepsLowerCase " Lan").mpr (fun c mem => ?_) _ ?_
  · simpa using List.all_eq_true.mp literal c mem
  · intro u mem
    rfl

end OpsAssist
