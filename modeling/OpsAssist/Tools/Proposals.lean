/-
# OpsAssist.Tools.Proposals -- what is executed is what was hashed

A pending action stores the dump of the validated arguments with a hash of it, and an
approval validates the stored dump again.  Validation rewrites: it moves an id given as a
name, then drops texts that say they are absent.

`hashed_is_executed_iff`: the second validation gives the hashed arguments back, except
when the first one dropped an id and so left an id in the place of the name.
-/
import OpsAssist.Tools.Calls

namespace OpsAssist

set_option autoImplicit false

open Theory Theory.Text

variable {host : Host}

/-! ## Lookups -/

/-- A member of the input, `None` when it is absent. -/
def given (members : Members) (key : String) : Value := (members.lookup key).getD .null

theorem lookup_map (f : String → Value → Value) (key : String) : ∀ members : Members,
    (members.map fun m => (m.1, f m.1 m.2)).lookup key = (members.lookup key).map (f key)
  | [] => rfl
  | (k, v) :: rest => by
      rw [List.map_cons, List.lookup_cons, List.lookup_cons]
      by_cases same : key = k
      · subst same
        simp
      · rw [beq_false_of_ne same]
        exact lookup_map f key rest

/-! ## The two rewriting validators -/

/-- The text says that its field is absent. -/
def saysAbsent (host : Host) (s : String) : Bool :=
  absentTexts.any fun t => t.toList == host.lower (strip s.toList)

/-- One member after `_absent_means_none`. -/
def cleared (host : Host) (optional : List String) (key : String) : Value → Value
  | .str s => if optional.contains key && saysAbsent host s then .null else .str s
  | v => v

theorem cleared_text (optional : List String) (key s : String) :
    cleared host optional key (.str s) =
      if optional.contains key && saysAbsent host s then .null else .str s := rfl

theorem absentMeansNone_eq (host : Host) (optional : List String) (members : Members) :
    absentMeansNone host optional (.obj members) =
      .obj (members.map fun m => (m.1, cleared host optional m.1 m.2)) := by
  unfold absentMeansNone
  refine congrArg Json.obj (List.map_congr_left fun m _ => ?_)
  obtain ⟨key, value⟩ := m
  cases value with
  | str s =>
      unfold cleared saysAbsent
      dsimp only
      split
      · rfl
      · rfl
  | _ => rfl

/-- The text is an employee id, give or take blanks and case. -/
def spellsId (host : Host) (s : String) : Bool :=
  matchesEmployeeId (host.upper (strip s.toList))

/-- An id given as a name, beside an id that says it is absent. -/
def Misplaced (host : Host) : Value → Prop
  | .obj members => ∃ name id, given members "employee_name" = .str name ∧
      spellsId host name = true ∧ given members "employee_id" = .str id ∧ id ≠ "" ∧
      saysAbsent host id = true
  | _ => False

/-! ## Fields -/

theorem both_ok {α β : Type} {a : Except (List FieldError) α} {b : Except (List FieldError) β}
    {x : α} {y : β} : both a b = .ok (x, y) ↔ a = .ok x ∧ b = .ok y := by
  unfold both
  cases a <;> cases b <;> simp

theorem StringRule.check_ok {rule : StringRule} {v : Value} {s : String}
    (checked : rule.check v = .ok s) : v = .str s := by
  unfold StringRule.check at checked
  split at checked
  · dsimp only at checked
    split_ifs at checked
    split at checked
    · rw [Except.ok.inj checked]
    · split_ifs at checked
      rw [Except.ok.inj checked]
  · cases checked

/-- What an optional text is validated to. -/
theorem optionalText_ok {rule : StringRule} {members : Members} {name : String}
    {r : Option String} :
    field members name (optionalCheck rule.check) (some none) = .ok r ↔
      (given members name = .null ∧ r = none) ∨
        ∃ s, given members name = .str s ∧ rule.check (.str s) = .ok s ∧ r = some s := by
  unfold field given
  cases members.lookup name with
  | none => simp [eq_comm]
  | some v =>
      cases v with
      | null => simp [optionalCheck, eq_comm]
      | str s =>
          cases outcome : rule.check (.str s) with
          | error kind => simp [optionalCheck, outcome, Except.map]
          | ok t =>
              obtain rfl := Json.str.inj (StringRule.check_ok outcome)
              simp [optionalCheck, outcome, Except.map, eq_comm]
      | _ => simp [optionalCheck, StringRule.check, Except.map]

/-- `employee_name` may be any text of these lengths. -/
def employeeNameRule : StringRule := { min := some 2, max := some 100 }

def employeeIdRule : StringRule := { pattern := some ("^U[0-9]\x7b3,\x7d$", matchesEmployeeId) }

/-- The fields of `create_vpn_profile`, checked one by one. -/
def vpnParts (host : Host) (members : Members) :
    Except (List FieldError) ((Option String × Option String × Int) × Unit) :=
  both
    (both (field members "employee_id" (optionalCheck employeeIdRule.check) (some none))
      (both (field members "employee_name" (optionalCheck employeeNameRule.check) (some none))
        (field members "duration_days" (intCheck host 1 MAX_VPN_DAYS) (some MAX_VPN_DAYS))))
    (forbidExtra ["employee_id", "employee_name", "duration_days"] members)

theorem vpnFields_eq (host : Host) (members : Members) :
    ArgsModel.fields host members .createVpnProfile =
      match vpnParts host members with
      | .error errors => .error errors
      | .ok ((id, name, days), _) =>
          if filled id = filled name then
            .error [⟨[], .valueError "provide exactly one of employee_id or employee_name"⟩]
          else .ok (.createVpnProfile id name days) := by
  show (vpnParts host members).bind _ = _
  cases vpnParts host members with
  | error errors => rfl
  | ok parts =>
      obtain ⟨⟨id, name, days⟩, _⟩ := parts
      dsimp only [Except.bind]
      split_ifs
      · rfl
      · rfl

/-- **The fields of `create_vpn_profile`.** -/
theorem vpnFields_ok {members : Members} {args : ToolArgs} :
    ArgsModel.fields host members .createVpnProfile = .ok args ↔
      ∃ id name days, args = .createVpnProfile id name days ∧
        field members "employee_id" (optionalCheck employeeIdRule.check) (some none) = .ok id ∧
        field members "employee_name" (optionalCheck employeeNameRule.check) (some none) =
          .ok name ∧
        field members "duration_days" (intCheck host 1 MAX_VPN_DAYS) (some MAX_VPN_DAYS) = .ok days ∧
        forbidExtra ["employee_id", "employee_name", "duration_days"] members = .ok () ∧
        filled id ≠ filled name := by
  rw [vpnFields_eq]
  constructor
  · intro done
    cases checked : vpnParts host members with
    | error errors => rw [checked] at done; cases done
    | ok parts =>
        rw [checked] at done
        obtain ⟨⟨id, name, days⟩, _⟩ := parts
        obtain ⟨fields, extra⟩ := both_ok.mp checked
        obtain ⟨first, later⟩ := both_ok.mp fields
        obtain ⟨second, third⟩ := both_ok.mp later
        dsimp only at done
        split_ifs at done with same
        exact ⟨id, name, days, (Except.ok.inj done).symm, first, second, third, extra, same⟩
  · rintro ⟨id, name, days, rfl, first, second, third, extra, one⟩
    have all : vpnParts host members = .ok ((id, name, days), ()) :=
      both_ok.mpr ⟨both_ok.mpr ⟨first, both_ok.mpr ⟨second, third⟩⟩, extra⟩
    rw [all]
    exact if_neg one

/-! ## Validating a proposal -/

theorem filled_some {s : String} (nonempty : s ≠ "") : filled (some s) = true := by
  unfold filled
  simpa using nonempty

/-- What a validation of `create_vpn_profile` gives. -/
structure VpnValid (host : Host) (id name : Option String) (days : Int) : Prop where
  id_ok : ∀ i, id = some i →
    employeeIdRule.check (.str i) = .ok i ∧ i ≠ "" ∧ saysAbsent host i = false
  name_ok : ∀ n, name = some n →
    employeeNameRule.check (.str n) = .ok n ∧ n ≠ "" ∧ saysAbsent host n = false
  days_ok : 1 ≤ days ∧ days ≤ MAX_VPN_DAYS
  one : filled id ≠ filled name

theorem employeeId_nonempty {i : String} (checked : employeeIdRule.check (.str i) = .ok i) :
    i ≠ "" := by
  rintro rfl
  revert checked
  decide

theorem employeeName_nonempty {n : String} (checked : employeeNameRule.check (.str n) = .ok n) :
    n ≠ "" := by
  rintro rfl
  revert checked
  decide

/-- The members the fields of `create_vpn_profile` are read from. -/
def vpnMembers (host : Host) (members : Members) : Members :=
  members.map fun m => (m.1, cleared host ArgsModel.createVpnProfile.optional m.1 m.2)

theorem given_cleared (host : Host) (members : Members) (key : String) :
    given (vpnMembers host members) key =
      cleared host ArgsModel.createVpnProfile.optional key (given members key) := by
  unfold given vpnMembers
  rw [lookup_map]
  cases members.lookup key with
  | none => rfl
  | some v => rfl

/-- A text that is left was there, and does not say it is absent. -/
theorem cleared_str {optional : List String} {key : String} {v : Value} {s : String}
    (known : optional.contains key = true) (kept : cleared host optional key v = .str s) :
    v = .str s ∧ saysAbsent host s = false := by
  cases v with
  | str t =>
      rw [cleared_text, known, Bool.true_and] at kept
      split_ifs at kept with absent
      obtain rfl := Json.str.inj kept
      exact ⟨rfl, by simpa using absent⟩
  | _ => cases kept

/-- What is dropped was absent, or a text that said so. -/
theorem cleared_null {optional : List String} {key : String} {v : Value}
    (gone : cleared host optional key v = .null) :
    v = .null ∨ ∃ s, v = .str s ∧ saysAbsent host s = true := by
  cases v with
  | null => exact .inl rfl
  | str t =>
      rw [cleared_text] at gone
      split_ifs at gone with absent
      exact .inr ⟨t, rfl, (Bool.and_eq_true_iff.mp absent).2⟩
  | _ => cases gone

theorem intCheck_ok {ge le days : Int} {v : Value} :
    intCheck host ge le v = .ok days ↔ host.laxInt v = some days ∧ ge ≤ days ∧ days ≤ le := by
  unfold intCheck
  cases host.laxInt v with
  | none => simp
  | some z =>
      dsimp only
      constructor
      · intro done
        split_ifs at done with high low
        obtain rfl := Except.ok.inj done
        exact ⟨rfl, not_lt.mp low, not_lt.mp high⟩
      · rintro ⟨same, low, high⟩
        obtain rfl := Option.some.inj same
        rw [if_neg (not_lt.mpr high), if_neg (not_lt.mpr low)]

theorem days_within {members : Members} {days : Int}
    (done : field members "duration_days" (intCheck host 1 MAX_VPN_DAYS) (some MAX_VPN_DAYS) =
      .ok days) : 1 ≤ days ∧ days ≤ MAX_VPN_DAYS := by
  unfold field at done
  cases given : members.lookup "duration_days" with
  | none =>
      rw [given] at done
      obtain rfl := Except.ok.inj done
      decide
  | some v =>
      rw [given] at done
      dsimp only at done
      cases checked : intCheck host 1 MAX_VPN_DAYS v with
      | error kind => rw [checked] at done; cases done
      | ok z =>
          rw [checked] at done
          obtain rfl := Except.ok.inj done
          exact (intCheck_ok.mp checked).2

/-- What the fields give is valid. -/
theorem vpnValid_of_fields {members : Members} {id name : Option String} {days : Int}
    (first : field (vpnMembers host members) "employee_id" (optionalCheck employeeIdRule.check)
      (some none) = .ok id)
    (second : field (vpnMembers host members) "employee_name"
      (optionalCheck employeeNameRule.check) (some none) = .ok name)
    (third : field (vpnMembers host members) "duration_days" (intCheck host 1 MAX_VPN_DAYS)
      (some MAX_VPN_DAYS) = .ok days)
    (one : filled id ≠ filled name) : VpnValid host id name days := by
  refine ⟨?_, ?_, days_within third, one⟩
  · rintro i rfl
    rcases optionalText_ok.mp first with ⟨-, none⟩ | ⟨s, there, checked, same⟩
    · cases none
    · obtain rfl := Option.some.inj same
      rw [given_cleared] at there
      exact ⟨checked, employeeId_nonempty checked, (cleared_str rfl there).2⟩
  · rintro n rfl
    rcases optionalText_ok.mp second with ⟨-, none⟩ | ⟨s, there, checked, same⟩
    · cases none
    · obtain rfl := Option.some.inj same
      rw [given_cleared] at there
      exact ⟨checked, employeeName_nonempty checked, (cleared_str rfl there).2⟩

/-- **Moving an id**: either the name spells an id and there is no other, and it is moved,
or nothing is done. -/
theorem anIdIsAnId_cases (host : Host) (members : Members) :
    (∃ n moved, anIdIsAnId host (.obj members) = .obj moved ∧
      given members "employee_name" = .str n ∧ spellsId host n = true ∧
      truthy (given members "employee_id") = false ∧ given moved "employee_name" = .null) ∨
    (anIdIsAnId host (.obj members) = .obj members ∧
      ∀ n, given members "employee_name" = .str n → spellsId host n = true →
        truthy (given members "employee_id") = true) := by
  have id_truthy : ((members.lookup "employee_id").map truthy).getD false =
      truthy (given members "employee_id") := by
    unfold given
    cases members.lookup "employee_id" with
    | none => rfl
    | some v => rfl
  unfold anIdIsAnId
  dsimp only
  rw [id_truthy]
  by_cases named : ∃ n, given members "employee_name" = .str n ∧ spellsId host n = true
  · obtain ⟨n, name, spelled⟩ := named
    have there : members.lookup "employee_name" = some (.str n) := by
      unfold given at name
      cases found : members.lookup "employee_name" with
      | none => rw [found] at name; cases name
      | some v =>
          rw [found] at name
          rw [show v = .str n from name]
    rw [there]
    dsimp only
    rw [show matchesEmployeeId (host.upper (strip n.toList)) = true from spelled, Bool.true_and]
    cases has : truthy (given members "employee_id") with
    | true => exact .inr ⟨rfl, fun _ _ _ => rfl⟩
    | false =>
        refine .inl ⟨n, _, rfl, name, spelled, rfl, ?_⟩
        unfold given
        rw [lookup_setMember, if_pos rfl]
        rfl
  · right
    refine ⟨?_, fun n name spelled => absurd ⟨n, name, spelled⟩ named⟩
    refine if_neg fun moves => ?_
    have spelled := (Bool.and_eq_true_iff.mp moves).1
    split at spelled
    · rename_i name found
      exact named ⟨name, by unfold given; rw [found]; rfl, spelled⟩
    · cases spelled

theorem validate_vpn_eq {raw : Value} :
    ArgsModel.createVpnProfile.validate host raw =
      match anIdIsAnId host raw with
      | .obj members => ArgsModel.fields host (vpnMembers host members) .createVpnProfile
      | _ => .error [⟨[], .dictType⟩] := by
  unfold ArgsModel.validate ArgsModel.prepare
  dsimp only
  cases anIdIsAnId host raw with
  | obj members => rw [absentMeansNone_eq]; rfl
  | _ => rfl

/-- **The first validation**: the arguments are valid, and a name that spells an id was left
in its place exactly when it was misplaced. -/
theorem validate_vpn {raw : Value} {args : ToolArgs}
    (validated : ArgsModel.createVpnProfile.validate host raw = .ok args) :
    ∃ id name days, args = .createVpnProfile id name days ∧ VpnValid host id name days ∧
      (Misplaced host raw ↔ id = none ∧ ∃ n, name = some n ∧ spellsId host n = true) := by
  rw [validate_vpn_eq] at validated
  cases raw with
  | obj members =>
      rcases anIdIsAnId_cases host members with
        ⟨n, moved, same, named, spelled, falsy, gone⟩ | ⟨same, kept⟩
      · rw [same] at validated
        obtain ⟨id, name, days, rfl, first, second, third, -, one⟩ := vpnFields_ok.mp validated
        refine ⟨id, name, days, rfl, vpnValid_of_fields first second third one, ?_, ?_⟩
        · rintro ⟨-, i, -, -, there, nonempty, -⟩
          rw [there] at falsy
          exact absurd (by simpa [truthy] using falsy) nonempty
        · rintro ⟨-, n', rfl, -⟩
          rcases optionalText_ok.mp second with ⟨-, none⟩ | ⟨t, there, -, -⟩
          · cases none
          · rw [given_cleared, gone] at there
            cases there
      · rw [same] at validated
        obtain ⟨id, name, days, rfl, first, second, third, -, one⟩ := vpnFields_ok.mp validated
        refine ⟨id, name, days, rfl, vpnValid_of_fields first second third one, ?_, ?_⟩
        · rintro ⟨n, i, named, spelled, there, nonempty, absent⟩
          have dropped : id = none := by
            rcases optionalText_ok.mp first with ⟨-, none⟩ | ⟨t, is, -, -⟩
            · exact none
            · rw [given_cleared] at is
              obtain ⟨text, filled⟩ := cleared_str rfl is
              rw [there] at text
              obtain rfl := Json.str.inj text
              rw [absent] at filled
              cases filled
          refine ⟨dropped, n, ?_, spelled⟩
          rcases optionalText_ok.mp second with ⟨-, none⟩ | ⟨t, is, -, held⟩
          · rw [dropped, none] at one
            exact absurd rfl one
          · rw [given_cleared] at is
            have text := (cleared_str rfl is).1
            rw [named] at text
            rw [held, Json.str.inj text]
        · rintro ⟨rfl, n, rfl, spelled⟩
          have named : given members "employee_name" = .str n := by
            rcases optionalText_ok.mp second with ⟨-, none⟩ | ⟨t, is, -, held⟩
            · cases none
            · rw [given_cleared] at is
              rw [Option.some.inj held]
              exact (cleared_str rfl is).1
          have truth := kept n named spelled
          have gone : given (vpnMembers host members) "employee_id" = .null := by
            rcases optionalText_ok.mp first with ⟨null, -⟩ | ⟨t, -, -, held⟩
            · exact null
            · cases held
          rw [given_cleared] at gone
          rcases cleared_null gone with null | ⟨i, there, absent⟩
          · rw [null] at truth
            cases truth
          · rw [there] at truth
            exact ⟨n, i, named, spelled, there, by simpa [truthy] using truth, absent⟩
  | _ => cases validated

/-! ## Validating the stored arguments -/

/-- What is stored of the arguments of `create_vpn_profile`. -/
def storedMembers (id name : Option String) (days : Int) : Members :=
  [("duration_days", .num (.int days)), ("employee_id", optionalValue id),
    ("employee_name", optionalValue name)]

theorem addMember_after {α : Type} {k k' : String} (v v' : α) (rest : List (String × α))
    (after : ¬k.toList < k'.toList) (other : k ≠ k') :
    Json.addMember k v ((k', v') :: rest) = (k', v') :: Json.addMember k v rest := by
  rw [Json.addMember, if_neg after, if_neg other]

theorem canon_dump (id name : Option String) (days : Int) :
    (ToolArgs.createVpnProfile id name days).dump.canon = .obj (storedMembers id name days) := by
  have one : Json.addMember "employee_name" (optionalValue name)
      [("duration_days", (Json.num (Number.int days) : Value))] =
      [("duration_days", .num (.int days)), ("employee_name", optionalValue name)] :=
    addMember_after _ _ [] (by decide +kernel) (by decide)
  have first : "employee_id".toList < "employee_name".toList := by decide +kernel
  have two : Json.addMember "employee_id" (optionalValue id)
      [("duration_days", (Json.num (Number.int days) : Value)),
        ("employee_name", optionalValue name)] = storedMembers id name days := by
    rw [addMember_after _ _ _ (by decide +kernel) (by decide),
      Json.addMember_of_lt _ fun m mem => by rw [List.mem_singleton.mp mem]; exact first]
    rfl
  show Json.obj (Json.addMember "employee_id" (optionalValue id).canon
    (Json.addMember "employee_name" (optionalValue name).canon
      [("duration_days", .num (.int days))])) = _
  rw [canon_optionalValue, canon_optionalValue, one, two]

theorem numbers_stored (id name : Option String) (days : Int) :
    (Json.obj (storedMembers id name days) : Value).numbers = [.int days] := by
  cases id <;> cases name <;> rfl

/-- The stored arguments are read back as they were. -/
theorem read_stored {id name : Option String} {days : Int} {b : Jsonb}
    (stored : Jsonb.store (ToolArgs.createVpnProfile id name days).dump = some b) :
    b.read = .obj (storedMembers id name days) := by
  rw [← canon_dump]
  apply (Jsonb.read_store_iff stored).mpr
  intro n mem
  rw [canon_dump, numbers_stored] at mem
  rw [List.mem_singleton.mp mem]
  trivial

/-- The validation library takes an integer as it is. -/
def Host.ReadsInts (host : Host) : Prop := ∀ z, host.laxInt (.num (.int z)) = some z

section Stored

variable {id name : Option String} {days : Int}

theorem given_stored_id : given (storedMembers id name days) "employee_id" = optionalValue id := rfl

theorem given_stored_name :
    given (storedMembers id name days) "employee_name" = optionalValue name := rfl

/-- The stored members are what the fields are read from: nothing left says it is absent. -/
theorem vpnMembers_stored (valid : VpnValid host id name days) :
    vpnMembers host (storedMembers id name days) = storedMembers id name days := by
  have kept : ∀ {key : String} {o : Option String}, (∀ t, o = some t → saysAbsent host t = false) →
      cleared host ArgsModel.createVpnProfile.optional key (optionalValue o) = optionalValue o := by
    intro key o present
    cases o with
    | none => rfl
    | some t =>
        show cleared host _ key (.str t) = .str t
        rw [cleared_text, present t rfl, Bool.and_false]
        rfl
  unfold vpnMembers storedMembers
  simp only [List.map_cons, List.map_nil]
  rw [kept fun i held => (valid.id_ok i held).2.2, kept fun n held => (valid.name_ok n held).2.2]
  rfl

/-- The fields of the stored members give the stored arguments. -/
theorem fields_stored (reads : host.ReadsInts) (valid : VpnValid host id name days) :
    ArgsModel.fields host (storedMembers id name days) .createVpnProfile =
      .ok (.createVpnProfile id name days) := by
  have text : ∀ {rule : StringRule} {key : String} {o : Option String},
      given (storedMembers id name days) key = optionalValue o →
      (∀ t, o = some t → rule.check (.str t) = .ok t) →
      field (storedMembers id name days) key (optionalCheck rule.check) (some none) = .ok o := by
    intro rule key o there checked
    apply optionalText_ok.mpr
    cases o with
    | none => exact .inl ⟨there, rfl⟩
    | some t => exact .inr ⟨t, there, checked t rfl, rfl⟩
  apply vpnFields_ok.mpr
  refine ⟨id, name, days, rfl, text given_stored_id fun i held => (valid.id_ok i held).1,
    text given_stored_name fun n held => (valid.name_ok n held).1, ?_, rfl, valid.one⟩
  have checked : intCheck host 1 MAX_VPN_DAYS (.num (.int days)) = .ok days :=
    intCheck_ok.mpr ⟨reads days, valid.days_ok⟩
  unfold field
  rw [show (storedMembers id name days).lookup "duration_days" = some (.num (.int days)) from rfl]
  dsimp only
  rw [checked]

/-- With an id there is no name. -/
theorem VpnValid.name_none {i : String} (valid : VpnValid host (some i) name days) : name = none := by
  cases held : name with
  | none => rfl
  | some n =>
      have one := valid.one
      rw [held, filled_some (valid.id_ok i rfl).2.1,
        filled_some (valid.name_ok n held).2.1] at one
      exact absurd rfl one

/-- **The second validation** gives the stored arguments back when no name spells an id. -/
theorem revalidate_same (reads : host.ReadsInts) (valid : VpnValid host id name days)
    (plain : ¬(id = none ∧ ∃ n, name = some n ∧ spellsId host n = true)) :
    ArgsModel.createVpnProfile.validate host (.obj (storedMembers id name days)) =
      .ok (.createVpnProfile id name days) := by
  rw [validate_vpn_eq]
  rcases anIdIsAnId_cases host (storedMembers id name days) with
    ⟨n, moved, -, named, spelled, falsy, -⟩ | ⟨same, -⟩
  · rw [given_stored_name] at named
    cases held : name with
    | none => rw [held] at named; cases named
    | some n' =>
        rw [held] at named
        obtain rfl := Json.str.inj named
        cases id with
        | none => exact absurd ⟨rfl, _, held, spelled⟩ plain
        | some i =>
            rw [valid.name_none] at held
            cases held
  · rw [same]
    dsimp only
    rw [vpnMembers_stored valid]
    exact fields_stored reads valid

/-- When a name spells an id, the second validation gives no name. -/
theorem revalidate_moved {n : String} (spelled : spellsId host n = true) {args : ToolArgs}
    (again : ArgsModel.createVpnProfile.validate host (.obj (storedMembers none (some n) days)) =
      .ok args) : ∃ id days, args = .createVpnProfile id none days := by
  rw [validate_vpn_eq] at again
  rcases anIdIsAnId_cases host (storedMembers none (some n) days) with
    ⟨n', moved, same, -, -, -, gone⟩ | ⟨-, kept⟩
  · rw [same] at again
    obtain ⟨id, name, days', rfl, -, second, -, -, -⟩ := vpnFields_ok.mp again
    rcases optionalText_ok.mp second with ⟨-, rfl⟩ | ⟨t, there, -, -⟩
    · exact ⟨id, days', rfl⟩
    · rw [given_cleared, gone] at there
      cases there
  · have truth := kept n rfl spelled
    cases truth

end Stored

/-! ## Proposals -/

/-- The stored arguments, validated again, are the stored arguments, and hash to the stored
hash. -/
def PendingAction.ExecutesAsHashed (host : Host) (spec : ToolSpec) (p : PendingAction) : Prop :=
  ∃ args, spec.argsModel.validate host p.arguments.read = .ok args ∧
    Jsonb.store args.dump = some p.arguments ∧
    OpsAssist.actionHash host p.tool args.dump p.requesterId = p.actionHash

/-- **What is executed is what was hashed, exactly when no id was given as a name beside an id
that says it is absent.** -/
theorem hashed_is_executed_iff {env : Env} {principal : Principal} {tool : String}
    {rawArgs : Value} {ctx : ToolContext} {db db' : Db} {outcome : ToolOutcome}
    (reads : host.ReadsInts)
    (accepted : runTool host env principal tool rawArgs ctx db = .ok (outcome, db'))
    (pending : outcome.status = .pending) :
    ∃ spec p, findTool tool = some spec ∧ spec.sensitive = true ∧
      db'.pendingActions = db.pendingActions ++ [p] ∧ outcome.pendingActionId = some p.id ∧
      p.tool = tool ∧ p.requesterId = principal.userId ∧
      (p.ExecutesAsHashed host spec ↔ ¬Misplaced host rawArgs) := by
  cases runTool_effect accepted with
  | refused decision status decided recorded =>
      rcases status with denied | failed
      · rw [denied] at pending; cases pending
      · rw [failed] at pending; cases pending
  | executed spec args result mid known harmless validated handled status recorded =>
      rw [status] at pending
      cases pending
  | proposed spec args p known sensitive validated allowed fits id named requester undecided status
      proposal arguments hashed recorded =>
      obtain ⟨row, -, -, rfl⟩ := recorded
      refine ⟨spec, p, known, sensitive, rfl, proposal, named, requester, ?_⟩
      have vpn : spec.argsModel = .createVpnProfile := (findTool_sensitive known).mp sensitive
      rw [vpn] at validated
      obtain ⟨id, name, days, rfl, valid, misplaced⟩ := validate_vpn validated
      rw [misplaced]
      unfold PendingAction.ExecutesAsHashed
      rw [vpn, read_stored arguments, named, requester]
      constructor
      · rintro ⟨args, again, same, -⟩ ⟨rfl, n, rfl, spelled⟩
        obtain ⟨id', days', rfl⟩ := revalidate_moved spelled again
        have reread := read_stored same
        rw [read_stored arguments] at reread
        have names : optionalValue (some n) = .null :=
          congrArg (given · "employee_name") (Json.obj.inj reread)
        cases names
      · intro plain
        exact ⟨_, revalidate_same reads valid plain, arguments, hashed.symm⟩

/-! ## Poles -/

/-- The name is an id, and the id says it is absent. -/
def poleMisplaced : Value :=
  .obj [("employee_id", .str "null"), ("employee_name", .str "U001")]

def poleById : Value := .obj [("employee_id", .str "U001"), ("employee_name", .str "null")]

/-- The one user there is asks for a profile. -/
def poleProposal (raw : Value) : Except Raised (ToolOutcome × Db) :=
  runTool .plain poleEnv
    { userId := "U001", name := "", department := "it_ops", role := "",
      permissions := ["vpn:create"] } "create_vpn_profile" raw { requestId := "r1" }
    { emptyDb with
      users := [{ id := "U001", name := "", department := "it_ops", role := "",
                  permissions := ["vpn:create"], isActive := true }] }

theorem plain_readsInts : Host.plain.ReadsInts := fun _ => rfl

/-- Whether the one action an accepted proposal wrote has the property. -/
def poleProposes (raw : Value) (property : PendingAction → Bool) : Bool :=
  match poleProposal raw with
  | .ok (outcome, db) =>
      match db.pendingActions with
      | [p] => outcome.status == .pending && property p
      | _ => false
  | .error _ => false

theorem exists_proposal {raw : Value} {property : PendingAction → Bool}
    (check : poleProposes raw property = true) :
    ∃ outcome db p, poleProposal raw = .ok (outcome, db) ∧ outcome.status = .pending ∧
      db.pendingActions = [p] ∧ property p = true := by
  unfold poleProposes at check
  split at check
  · rename_i outcome db ran
    split at check
    · rename_i p rows
      obtain ⟨status, holds⟩ := Bool.and_eq_true_iff.mp check
      exact ⟨outcome, db, p, ran, beq_iff_eq.mp status, rows, holds⟩
    · cases check
  · cases check

/-- The arguments an approval executes hash to something else. -/
def unhashed (p : PendingAction) : Bool :=
  match ArgsModel.createVpnProfile.validate .plain p.arguments.read with
  | .ok args => actionHash .plain p.tool args.dump p.requesterId != p.actionHash
  | .error _ => true

/-- Pole: an accepted proposal names an employee; its approval executes for an id. -/
theorem misplaced_id_unhashed : ∃ outcome db p, poleProposal poleMisplaced = .ok (outcome, db) ∧
    outcome.status = .pending ∧ db.pendingActions = [p] ∧
      ∀ spec, findTool "create_vpn_profile" = some spec → ¬p.ExecutesAsHashed .plain spec := by
  obtain ⟨outcome, db, p, ran, status, rows, differs⟩ :=
    exists_proposal (show poleProposes poleMisplaced unhashed = true by decide +kernel)
  refine ⟨outcome, db, p, ran, status, rows, ?_⟩
  rintro spec known ⟨args, again, -, same⟩
  rw [(findTool_vpn known).mpr rfl] at again
  unfold unhashed at differs
  rw [again] at differs
  exact absurd same (by simpa using differs)

theorem hashed_is_executed_iff_pole : ∃ outcome db spec p,
    poleProposal poleById = .ok (outcome, db) ∧ findTool "create_vpn_profile" = some spec ∧
      db.pendingActions = [p] ∧
        (p.ExecutesAsHashed .plain spec ↔ ¬Misplaced .plain poleById) := by
  obtain ⟨outcome, db, -, accepted, pending, -, -⟩ :=
    exists_proposal (show poleProposes poleById (fun _ => true) = true by decide +kernel)
  obtain ⟨spec, p, known, -, rows, -, -, -, iff⟩ :=
    hashed_is_executed_iff plain_readsInts accepted pending
  exact ⟨outcome, db, spec, p, accepted, known, rows, iff⟩

end OpsAssist
