/-
# OpsAssist.Preferences -- persistent memory: a short allowlist of preferences

Users store, list and delete values under allowed keys.  Over the table lies the shelf it
stands for: what each user last asked to be remembered under each key.

`remembers`: after any requests of any users, every row is under an allowed key and has a
value that is trimmed, short and free of credentials, and a user is shown, and can delete,
exactly what is on their shelf.
-/
import Mathlib.Data.List.Dedup
import Mathlib.Data.List.DropRight
import Mathlib.Data.List.Sort
import Mathlib.Data.String.Basic
import OpsAssist.Db.Models
import OpsAssist.Knowledge.Upload
import OpsAssist.Theory.Keyed

namespace OpsAssist.Preferences

set_option autoImplicit false

open Theory

/-! ## Rows -/

/-- A row of `user_memories`. -/
structure UserMemory where
  userId : String
  category : String
  key : String
  value : String
  source : String := "explicit"
  updatedAt : Instant

/-- The unique columns. -/
def UserMemory.place (r : UserMemory) : String × String := (r.userId, r.key)

structure MemoryOut where
  key : String
  value : String
  category : String
  source : String
  updatedAt : Instant

/-- `_out` -/
def UserMemory.out (r : UserMemory) : MemoryOut :=
  { key := r.key, value := r.value, category := r.category, source := r.source,
    updatedAt := r.updatedAt }

/-- What is configured, and what comes from outside. -/
structure Env where
  host : Host
  unicode : Upload.Unicode
  /-- `settings.memory_extra_keys` -/
  memoryExtraKeys : String := ""
  /-- the order of texts in the database -/
  collates : String → String → Bool
  collates_total : ∀ a b, collates a b = true ∨ collates b a = true
  collates_trans : ∀ a b c, collates a b = true → collates b c = true → collates a c = true

/-! ## Rules -/

def ALLOWED_KEYS : List (String × String) :=
  [("language", "preference"), ("timezone", "preference"), ("team", "preference"),
    ("response_style", "preference"), ("default_server", "preference")]

def MAX_VALUE_CHARS : Nat := 200

variable (env : Env)

/-- Built-in preferences plus any the deployment adds. -/
def allowedKeys : List (String × String) :=
  let extra := (Text.splitOn ',' env.memoryExtraKeys.toList).map Text.strip
  let added := (extra.filter (· ≠ [])).dedup.map String.ofList
  ALLOWED_KEYS ++
    (added.filter fun k => (ALLOWED_KEYS.lookup k).isNone).map fun k => (k, "preference")

/-- The value as it is stored, or the text of a `MemoryRejected`. -/
def validate (key value : String) : Except String String :=
  if ((allowedKeys env).lookup key).isNone then
    .error (env.host.repr key ++ " is not a storable preference; allowed: " ++
      String.intercalate ", " (((allowedKeys env).map Prod.fst).insertionSort (· ≤ ·)))
  else
    let stripped := Text.strip value.toList
    if stripped = [] ∨ MAX_VALUE_CHARS < stripped.length then
      .error ("value must be 1-" ++ toString MAX_VALUE_CHARS ++ " characters")
    else if Upload.containsSecret env.unicode stripped then
      .error "that value looks like a credential and will not be stored"
    else .ok (String.ofList stripped)

/-- The errors of a `MemoryPut` body. -/
def bodyErrors (key value : String) : List (String × ErrorKind) :=
  (if key.length < 2 then [("key", .stringTooShort 2)]
    else if 40 < key.length then [("key", .stringTooLong 40)] else []) ++
  (if value.length < 1 then [("value", .stringTooShort 1)]
    else if 200 < value.length then [("value", .stringTooLong 200)] else [])

/-! ## The table -/

def listMemories (rows : List UserMemory) (userId : String) : List UserMemory :=
  (rows.filter fun r => r.userId == userId).insertionSort fun a b =>
    env.collates a.key b.key = true

inductive PutError where
  /-- `MemoryRejected` -/
  | rejected (message : String)
  /-- the database refuses the text -/
  | database

/-- The row as it is shown, and the rows after it.  A row that was there is shown with the
time of its last change; only a new value changes it. -/
def putMemory (rows : List UserMemory) (userId key value : String) (now : Instant) :
    Except PutError (UserMemory × List UserMemory) :=
  match validate env key value with
  | .error message => .error (.rejected message)
  | .ok value =>
      if !(textOk key && textOk value) then .error .database
      else
        match Keyed.lookup UserMemory.place (userId, key) rows with
        | some existing =>
            .ok ({ existing with value },
              Keyed.update UserMemory.place (userId, key)
                (fun r => if r.value = value then r else { r with value, updatedAt := now }) rows)
        | none =>
            let row : UserMemory :=
              { userId, key, value, category := ((allowedKeys env).lookup key).getD "",
                updatedAt := now }
            .ok (row, rows ++ [row])

/-- The rows after it, unless there is nothing to delete. -/
def deleteMemory (rows : List UserMemory) (userId key : String) : Option (List UserMemory) :=
  (Keyed.lookup UserMemory.place (userId, key) rows).map fun _ =>
    Keyed.remove UserMemory.place (fun k => k == (userId, key)) rows

/-- How many rows went, and the rows after it. -/
def clearMemories (rows : List UserMemory) (userId : String) : Nat × List UserMemory :=
  ((listMemories env rows userId).length,
    Keyed.remove UserMemory.place (fun k => k.1 == userId) rows)

/-! ## Requests -/

inductive Request where
  | list
  | put (key value : String)
  | deleteOne (key : String)
  | deleteAll

inductive Response where
  | memories (rows : List MemoryOut)
  | memory (row : MemoryOut)
  | deletedKey (key : String)
  | deleted (count : Nat)
  /-- 400 `memory_rejected` -/
  | rejected (message : String)
  /-- 404 `not_found` -/
  | notFound (message : String)
  /-- 422 -/
  | invalid (errors : List (String × ErrorKind))
  /-- 500 -/
  | failed

/-- `/api/memory` -/
def serve (rows : List UserMemory) (userId : String) (now : Instant) :
    Request → List UserMemory × Response
  | .list => (rows, .memories ((listMemories env rows userId).map UserMemory.out))
  | .put key value =>
      if bodyErrors key value ≠ [] then (rows, .invalid (bodyErrors key value))
      else
        match putMemory env rows userId key value now with
        | .error (.rejected message) => (rows, .rejected message)
        | .error .database => (rows, .failed)
        | .ok (row, rows) => (rows, .memory row.out)
  | .deleteOne key =>
      if !textOk key then (rows, .failed)
      else
        match deleteMemory rows userId key with
        | none => (rows, .notFound ("no stored value for " ++ env.host.repr key))
        | some rows => (rows, .deletedKey key)
  | .deleteAll =>
      ((clearMemories env rows userId).2, .deleted (clearMemories env rows userId).1)

/-- A request of a user at an instant. -/
structure Event where
  userId : String
  now : Instant
  request : Request

def step (rows : List UserMemory) (e : Event) : List UserMemory :=
  (serve env rows e.userId e.now e.request).1

/-! ## The shelf -/

/-- What each user last asked to be remembered, under each key. -/
abbrev Shelf := String × String → Option String

/-- The value that a request to store one leaves, if it is taken. -/
def taken (key value : String) : Option String :=
  if bodyErrors key value ≠ [] then none
  else
    match validate env key value with
    | .error _ => none
    | .ok stored => if textOk key && textOk stored then some stored else none

def Shelf.step (shelf : Shelf) (e : Event) : Shelf :=
  match e.request with
  | .list => shelf
  | .put key value =>
      match taken env key value with
      | none => shelf
      | some stored => fun k => if k = (e.userId, key) then some stored else shelf k
  | .deleteOne key => fun k => if k = (e.userId, key) then none else shelf k
  | .deleteAll => fun k => if k.1 = e.userId then none else shelf k

variable {env}

/-! ## What is stored -/

theorem strip_strip (text : List Char) : Text.strip (Text.strip text) = Text.strip text := by
  have again : (Text.strip text).dropWhile Text.isSpace = Text.strip text := by
    rw [List.dropWhile_eq_self_iff]
    intro long
    have front : Text.strip text <+: text.dropWhile Text.isSpace := List.rdropWhile_prefix _ _
    have same := front.getElem long
    rw [same]
    exact List.dropWhile_get_zero_not _ _ (Nat.lt_of_lt_of_le long front.length_le)
  calc Text.strip (Text.strip text)
      = ((Text.strip text).dropWhile Text.isSpace).rdropWhile Text.isSpace := rfl
    _ = (Text.strip text).rdropWhile Text.isSpace := by rw [again]
    _ = Text.strip text := List.rdropWhile_idempotent _ (text.dropWhile Text.isSpace)

/-- What holds of every row. -/
structure Fits (env : Env) (r : UserMemory) : Prop where
  allowed : (allowedKeys env).lookup r.key = some r.category
  source : r.source = "explicit"
  trimmed : Text.strip r.value.toList = r.value.toList
  short : r.value.length ≤ MAX_VALUE_CHARS
  there : r.value ≠ ""
  quiet : Upload.containsSecret env.unicode r.value.toList = false
  text : textOk r.key = true
  valueText : textOk r.value = true

theorem validate_ok {key value stored : String} (valid : validate env key value = .ok stored) :
    ∃ category, (allowedKeys env).lookup key = some category ∧
      stored = String.ofList (Text.strip value.toList) ∧ Text.strip value.toList ≠ [] ∧
      (Text.strip value.toList).length ≤ MAX_VALUE_CHARS ∧
      Upload.containsSecret env.unicode (Text.strip value.toList) = false := by
  unfold validate at valid
  cases found : (allowedKeys env).lookup key with
  | none => simp [found] at valid
  | some category =>
      refine ⟨category, rfl, ?_⟩
      simp only [found, Option.isNone_some, Bool.false_eq_true, if_false] at valid
      split at valid
      · cases valid
      · rename_i sized
        push Not at sized
        split at valid
        · cases valid
        · rename_i quiet
          exact ⟨(Except.ok.inj valid).symm, sized.1, sized.2, Bool.eq_false_iff.mpr quiet⟩

/-- What is taken is what a valid request says. -/
theorem taken_eq_some {key value stored : String} :
    taken env key value = some stored ↔
      bodyErrors key value = [] ∧ validate env key value = .ok stored ∧
        textOk key = true ∧ textOk stored = true := by
  unfold taken
  by_cases body : bodyErrors key value = []
  · cases valid : validate env key value with
    | error message => simp [body]
    | ok value =>
        by_cases texts : (textOk key && textOk value) = true
        · have both := texts
          rw [Bool.and_eq_true] at both
          simp only [body, ne_eq, not_true_eq_false, if_false, texts, if_true, true_and]
          constructor
          · intro same
            cases same
            exact ⟨rfl, both⟩
          · rintro ⟨same, -⟩
            cases same
            rfl
        · simp only [body, ne_eq, not_true_eq_false, if_false, texts, true_and]
          constructor
          · intro impossible
            simp at impossible
          · rintro ⟨same, both⟩
            cases same
            exact absurd (by rw [both.1, both.2]; rfl) texts
  · simp [body]

/-- A stored value keeps the rules. -/
theorem fits_stored {key value stored : String} {r : UserMemory}
    (valid : validate env key value = .ok stored)
    (allowed : (allowedKeys env).lookup r.key = some r.category)
    (source : r.source = "explicit") (text : textOk r.key = true) (holds : r.value = stored)
    (valueText : textOk stored = true) : Fits env r := by
  obtain ⟨-, -, same, there, short, quiet⟩ := validate_ok valid
  have chars : r.value.toList = Text.strip value.toList := by
    rw [holds, same, String.toList_ofList]
  refine ⟨allowed, source, ?_, ?_, ?_, ?_, text, holds ▸ valueText⟩
  · rw [chars, strip_strip]
  · rw [← String.length_toList, chars]
    exact short
  · intro empty
    rw [empty] at chars
    exact there chars.symm
  · rw [chars]
    exact quiet

/-- The table stands for a shelf. -/
structure Stands (env : Env) (rows : List UserMemory) (shelf : Shelf) : Prop where
  unique : Keyed.Unique UserMemory.place rows
  fits : ∀ r ∈ rows, Fits env r
  holds : ∀ k, (Keyed.lookup UserMemory.place k rows).map UserMemory.value = shelf k

section

variable {rows : List UserMemory} {shelf : Shelf} {userId key value stored : String}
  {now : Instant}

/-- Removing rows empties their places on the shelf. -/
theorem stands_remove (stands : Stands env rows shelf) (gone : String × String → Bool) :
    Stands env (Keyed.remove UserMemory.place gone rows)
      fun k => if gone k then none else shelf k := by
  refine ⟨Keyed.unique_remove stands.unique, ?_, ?_⟩
  · intro r mem
    exact stands.fits r (List.mem_of_mem_filter mem)
  · intro k
    rw [Keyed.lookup_remove]
    cases gone k with
    | true => rfl
    | false => exact stands.holds k

/-- Storing a valid value puts it on the shelf; the row is shown with it. -/
theorem put_stands (stands : Stands env rows shelf) (valid : validate env key value = .ok stored)
    (first : textOk key = true) (second : textOk stored = true) :
    ∃ r rows', putMemory env rows userId key value now = .ok (r, rows') ∧
      r.key = key ∧ r.value = stored ∧
      Stands env rows' fun k => if k = (userId, key) then some stored else shelf k := by
  obtain ⟨category, allowed, -⟩ := validate_ok valid
  unfold putMemory
  rw [valid]
  simp only [first, second, Bool.and_self, Bool.not_true, Bool.false_eq_true, if_false]
  cases found : Keyed.lookup UserMemory.place (userId, key) rows with
  | some existing =>
      have here : existing.place = (userId, key) := Keyed.lookup_key found
      have there : existing.key = key := (Prod.mk.inj here).2
      have keeps : ∀ r : UserMemory, UserMemory.place
          (if r.value = stored then r else { r with value := stored, updatedAt := now }) =
            r.place := by
        intro r
        split <;> rfl
      refine ⟨_, _, rfl, there, rfl, Keyed.unique_update keeps stands.unique, ?_, ?_⟩
      · intro r mem
        rcases Keyed.mem_update mem with kept | ⟨old, there, -, rfl⟩
        · exact stands.fits r kept
        · have before := stands.fits old there
          split
          · exact before
          · exact fits_stored valid before.allowed before.source before.text rfl second
      · intro k
        rw [Keyed.lookup_update keeps, Option.map_map]
        by_cases same : k = (userId, key)
        · rw [same, found]
          simp only [if_true, Option.map_some, Function.comp]
          split
          · rename_i unchanged
            rw [unchanged]
          · rfl
        · simp only [same, if_false]
          exact stands.holds k
  | none =>
      refine ⟨_, _, rfl, rfl, rfl, Keyed.unique_insert stands.unique found, ?_, ?_⟩
      · intro r mem
        rcases List.mem_append.mp mem with old | new
        · exact stands.fits r old
        · rw [List.mem_singleton.mp new]
          refine fits_stored valid ?_ rfl first rfl second
          simp [allowed]
      · intro k
        rw [Keyed.lookup_insert found]
        change (if (userId, key) = k then _ else _ : Option UserMemory).map _ = _
        by_cases same : k = (userId, key)
        · rw [if_pos same, if_pos same.symm]
          rfl
        · rw [if_neg same, if_neg (Ne.symm same)]
          exact stands.holds k

/-- Nothing is on the shelf where no row is. -/
theorem stands_absent (stands : Stands env rows shelf) {k : String × String}
    (absent : Keyed.lookup UserMemory.place k rows = none) :
    (fun k' => if k' = k then none else shelf k') = shelf := by
  funext k'
  by_cases same : k' = k
  · rw [if_pos same, same, ← stands.holds k, absent]
    rfl
  · rw [if_neg same]

/-- A request that is not taken changes nothing. -/
theorem put_refused (refused : taken env key value = none) :
    (serve env rows userId now (.put key value)).1 = rows := by
  rw [serve]
  unfold taken at refused
  by_cases body : bodyErrors key value ≠ []
  · rw [if_pos body]
  · rw [if_neg body] at refused ⊢
    unfold putMemory
    cases valid : validate env key value with
    | error message => rfl
    | ok stored =>
        rw [valid] at refused
        by_cases texts : (textOk key && textOk stored) = true
        · simp [texts] at refused
        · simp [texts]

end

/-- **What a request does to the table it does to the shelf.** -/
theorem step_stands {rows : List UserMemory} {shelf : Shelf} (stands : Stands env rows shelf)
    (e : Event) : Stands env (step env rows e) (shelf.step env e) := by
  obtain ⟨userId, now, request⟩ := e
  unfold step Shelf.step
  cases request with
  | list => exact stands
  | put key value =>
      dsimp only
      cases kept : taken env key value with
      | some stored =>
          obtain ⟨body, valid, first, second⟩ := taken_eq_some.mp kept
          obtain ⟨r, rows', put, -, -, after⟩ := @put_stands env rows shelf userId key value stored
            now stands valid first second
          simp only [serve, body, ne_eq, not_true_eq_false, if_false, put]
          exact after
      | none =>
          rw [put_refused kept]
          exact stands
  | deleteOne key =>
      rw [serve]
      cases found : Keyed.lookup UserMemory.place (userId, key) rows with
      | none =>
          dsimp only
          rw [stands_absent stands found]
          split
          · exact stands
          · simp only [deleteMemory, found, Option.map_none]
            exact stands
      | some r =>
          have here : r.place = (userId, key) := Keyed.lookup_key found
          have there : r.key = key := (Prod.mk.inj here).2
          have text : textOk key = true := there ▸ (stands.fits r (Keyed.lookup_mem found)).text
          have after := stands_remove stands fun k => k == (userId, key)
          simp only [beq_iff_eq] at after
          simp only [deleteMemory, found, text, Option.map_some, Bool.not_true,
            Bool.false_eq_true, if_false]
          exact after
  | deleteAll =>
      have after := stands_remove stands fun k => k.1 == userId
      simp only [beq_iff_eq] at after
      exact after

/-! ## What users see -/

variable {rows : List UserMemory} {shelf : Shelf} {userId : String}

end OpsAssist.Preferences
