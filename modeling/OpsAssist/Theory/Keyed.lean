/-
# OpsAssist.Theory.Keyed -- tables with a unique key, and the maps they stand for

A table is a list of rows with a key.  `lookup` finds the row with a key, and says all
there is to say about a table with unique keys (`lookup_eq_some_iff`).  What inserting,
updating and removing rows does to it is said once for each (`lookup_insert`,
`lookup_update`, `lookup_remove`), and each keeps the keys unique.  What is done to rows of
other keys leaves the rows of a class of keys as they are, in their order
(`filter_insert`, `filter_update`, `filter_remove`).
-/
import Mathlib.Data.List.Nodup

namespace OpsAssist.Theory.Keyed

set_option autoImplicit false

section

variable {ρ κ : Type} (key : ρ → κ)

/-! ## Tables -/

/-- No two rows have one key. -/
def Unique (rows : List ρ) : Prop := (rows.map key).Nodup

def remove (gone : κ → Bool) (rows : List ρ) : List ρ := rows.filter fun r => !gone (key r)

variable {key}

theorem unique_remove {gone : κ → Bool} {rows : List ρ} (unique : Unique key rows) :
    Unique key (remove key gone rows) :=
  unique.sublist (List.filter_sublist.map key)

variable {mine : κ → Bool}

theorem filter_insert {rows : List ρ} {r : ρ} (other : mine (key r) = false) :
    (rows ++ [r]).filter (fun x => mine (key x)) = rows.filter fun x => mine (key x) := by
  simp [other]

theorem filter_remove {gone : κ → Bool} (others : ∀ k, mine k = true → gone k = false)
    (rows : List ρ) :
    (remove key gone rows).filter (fun x => mine (key x)) = rows.filter fun x => mine (key x) := by
  rw [remove, List.filter_filter]
  apply List.filter_congr
  intro r _
  cases here : mine (key r) with
  | true => simp [others _ here]
  | false => simp

variable [DecidableEq κ] (key)

/-- The row with a key. -/
def lookup (k : κ) (rows : List ρ) : Option ρ := rows.find? fun r => decide (key r = k)

def update (k : κ) (change : ρ → ρ) (rows : List ρ) : List ρ :=
  rows.map fun r => if key r = k then change r else r

variable {key}

/-! ## Looking up -/

theorem lookup_key {k : κ} {rows : List ρ} {r : ρ} (found : lookup key k rows = some r) :
    key r = k := by
  simpa using List.find?_some found

theorem lookup_mem {k : κ} {rows : List ρ} {r : ρ} (found : lookup key k rows = some r) :
    r ∈ rows := List.mem_of_find?_eq_some found

theorem lookup_eq_none_iff {k : κ} {rows : List ρ} :
    lookup key k rows = none ↔ ∀ r ∈ rows, key r ≠ k := by
  simp [lookup]

/-- **In a table with unique keys, a row is found under its key.** -/
theorem lookup_eq_some_iff {k : κ} {rows : List ρ} {r : ρ} (unique : Unique key rows) :
    lookup key k rows = some r ↔ r ∈ rows ∧ key r = k := by
  constructor
  · intro found
    exact ⟨lookup_mem found, lookup_key found⟩
  · rintro ⟨mem, rfl⟩
    cases found : lookup key (key r) rows with
    | none => exact absurd rfl (lookup_eq_none_iff.mp found r mem)
    | some other =>
        have same : other = r :=
          List.inj_on_of_nodup_map unique (lookup_mem found) mem (lookup_key found)
        rw [same]

/-- The rows with a key are the one that is found. -/
theorem filter_key {k : κ} : ∀ {rows : List ρ}, Unique key rows →
    rows.filter (fun r => decide (key r = k)) = (lookup key k rows).toList
  | [], _ => rfl
  | r :: rows, unique => by
      have rest : Unique key rows := (List.nodup_cons.mp unique).2
      by_cases same : key r = k
      · have none : rows.filter (fun s => decide (key s = k)) = [] := by
          rw [List.filter_eq_nil_iff]
          intro s mem
          have other : key s ≠ k := fun there =>
            (List.nodup_cons.mp unique).1 (same.trans there.symm ▸ List.mem_map_of_mem mem)
          simp [other]
        simp [lookup, same, none]
      · have later : lookup key k (r :: rows) = lookup key k rows := by simp [lookup, same]
        rw [later, ← filter_key rest]
        simp [same]

theorem lookup_insert {k : κ} {rows : List ρ} {r : ρ} (fresh : lookup key (key r) rows = none) :
    lookup key k (rows ++ [r]) = if key r = k then some r else lookup key k rows := by
  unfold lookup
  rw [List.find?_append]
  by_cases same : key r = k
  · have none : lookup key k rows = none := same ▸ fresh
    rw [lookup] at none
    simp [none, same]
  · simp [same]

theorem lookup_update {k other : κ} {change : ρ → ρ} (keeps : ∀ r, key (change r) = key r)
    (rows : List ρ) :
    lookup key other (update key k change rows) =
      (lookup key other rows).map fun r => if other = k then change r else r := by
  induction rows with
  | nil => rfl
  | cons r rest ih =>
      have there : key (if key r = k then change r else r) = key r := by
        split
        · exact keeps r
        · rfl
      unfold lookup update at ih ⊢
      rw [List.map_cons, List.find?_cons, List.find?_cons, there]
      by_cases found : key r = other
      · simp [found]
      · simp only [found, decide_false]
        exact ih

theorem lookup_remove {k : κ} {gone : κ → Bool} (rows : List ρ) :
    lookup key k (remove key gone rows) = if gone k then none else lookup key k rows := by
  induction rows with
  | nil => simp [lookup, remove]
  | cons r rest ih =>
      unfold lookup remove at ih ⊢
      rw [List.filter_cons, List.find?_cons]
      by_cases found : key r = k
      · cases dropped : gone k with
        | true =>
            rw [dropped] at ih
            simp only [found, dropped, Bool.not_true, Bool.false_eq_true, if_false]
            exact ih
        | false => simp [found, dropped]
      · cases dropped : gone (key r) with
        | true =>
            simp only [found, decide_false, Bool.not_true, Bool.false_eq_true, if_false]
            exact ih
        | false =>
            simp only [Bool.not_false, if_true, List.find?_cons, found, decide_false]
            exact ih

theorem mem_update {k : κ} {change : ρ → ρ} {rows : List ρ} {r : ρ}
    (mem : r ∈ update key k change rows) :
    r ∈ rows ∨ ∃ old ∈ rows, key old = k ∧ r = change old := by
  obtain ⟨old, there, rfl⟩ := List.mem_map.mp mem
  by_cases same : key old = k
  · rw [if_pos same]
    exact .inr ⟨old, there, same, rfl⟩
  · rw [if_neg same]
    exact .inl there

/-! ## Unique keys -/

theorem unique_insert {rows : List ρ} {r : ρ} (unique : Unique key rows)
    (fresh : lookup key (key r) rows = none) : Unique key (rows ++ [r]) := by
  rw [Unique, List.map_append]
  refine List.Nodup.append unique (List.nodup_singleton _) ?_
  intro k mem same
  obtain ⟨other, there, rfl⟩ := List.mem_map.mp mem
  exact lookup_eq_none_iff.mp fresh other there (List.mem_singleton.mp same)

theorem map_key_update {k : κ} {change : ρ → ρ} (keeps : ∀ r, key (change r) = key r)
    (rows : List ρ) : (update key k change rows).map key = rows.map key := by
  rw [update, List.map_map]
  apply List.map_congr_left
  intro r _
  simp only [Function.comp]
  split
  · exact keeps r
  · rfl

theorem unique_update {k : κ} {change : ρ → ρ} (keeps : ∀ r, key (change r) = key r)
    {rows : List ρ} (unique : Unique key rows) : Unique key (update key k change rows) := by
  rw [Unique, map_key_update keeps]
  exact unique

/-! ## Rows of a class of keys -/

theorem filter_update {k : κ} {change : ρ → ρ} (keeps : ∀ r, key (change r) = key r)
    (other : mine k = false) (rows : List ρ) :
    (update key k change rows).filter (fun x => mine (key x)) =
      rows.filter fun x => mine (key x) := by
  induction rows with
  | nil => rfl
  | cons r rest ih =>
      rw [update] at ih ⊢
      rw [List.map_cons, List.filter_cons, List.filter_cons, ih]
      by_cases same : key r = k
      · simp [same, keeps, other]
      · simp [same]

/-- A table is looked up among the rows of a class of keys. -/
theorem lookup_filter {k : κ} (own : mine k = true) (rows : List ρ) :
    lookup key k (rows.filter fun x => mine (key x)) = lookup key k rows := by
  have removed := @lookup_remove ρ κ key _ k (fun k => !mine k) rows
  simp only [own, Bool.not_true, Bool.false_eq_true, if_false] at removed
  rw [← removed, remove]
  simp

end

end OpsAssist.Theory.Keyed
