/-
# OpsAssist.Theory.Transactions -- rows and locks under READ COMMITTED

A table is a list of committed rows, newest first, and a `Pending` what one transaction has
done to it: the rows it inserts, what it sets in the rows it updates, and the rows it has
selected for update.  It holds the lock of every row it updates or selects, until it ends.

A statement that locks rows takes two steps.  It finds its targets in what is committed when
it starts (`targets`); when no other transaction holds one of them any more, it looks at them
again and takes those that still match (`update`, `lock`).

`filter_amend` is how an update that only withdraws rows from a selection shows in it.
-/
import Mathlib.Data.List.Basic

namespace OpsAssist.Theory

set_option autoImplicit false

section

variable {κ ρ χ : Type}

/-- The identity of a row, and what an UPDATE sets in it. -/
structure Table (κ ρ χ : Type) where
  key : ρ → κ
  set : χ → ρ → ρ
  key_set : ∀ change row, key (set change row) = key row

/-- What a transaction has done to a table and not yet committed, newest first. -/
structure Pending (κ ρ χ : Type) where
  inserts : List ρ := []
  updates : List (κ × χ) := []
  locked : List κ := []

variable [DecidableEq κ] (table : Table κ ρ χ)

/-- The transaction holds the lock of a row. -/
def Pending.holds (p : Pending κ ρ χ) (k : κ) : Bool :=
  p.locked.contains k || p.updates.any fun u => u.1 == k

namespace Table

/-- A committed row with what updates set in it, the oldest first. -/
def amend (updates : List (κ × χ)) (row : ρ) : ρ :=
  updates.foldr (fun u row => if u.1 = table.key row then table.set u.2 row else row) row

/-- What a transaction sees, and what is committed when it commits. -/
def view (p : Pending κ ρ χ) (rows : List ρ) : List ρ :=
  p.inserts ++ rows.map (table.amend p.updates)

/-- The rows a statement finds when it starts. -/
def targets (p : Pending κ ρ χ) (rows : List ρ) (matching : ρ → Bool) : List κ :=
  ((table.view p rows).filter matching).map table.key

/-- No other transaction holds one of the rows. -/
def free (others : List (Pending κ ρ χ)) (ks : List κ) : Bool :=
  ks.all fun k => others.all fun p => !p.holds k

/-- The second step of an UPDATE. -/
def update (p : Pending κ ρ χ) (rows : List ρ) (found : List κ) (matching : ρ → Bool)
    (change : χ) : Pending κ ρ χ :=
  let hit := fun row => found.contains (table.key row) && matching row
  { p with
    inserts := p.inserts.map fun row => if hit row then table.set change row else row
    updates := ((rows.map (table.amend p.updates)).filter hit).map (fun row =>
      (table.key row, change)) ++ p.updates }

/-- The rows a SELECT FOR UPDATE gives in its second step. -/
def selected (p : Pending κ ρ χ) (rows : List ρ) (found : List κ) (matching : ρ → Bool) : List ρ :=
  (table.view p rows).filter fun row => found.contains (table.key row) && matching row

/-- The second step of a SELECT FOR UPDATE. -/
def lock (p : Pending κ ρ χ) (rows : List ρ) (found : List κ) (matching : ρ → Bool) :
    Pending κ ρ χ :=
  { p with locked := (table.selected p rows found matching).map table.key ++ p.locked }

/-! ## Rows with updates -/

@[simp] theorem amend_nil (row : ρ) : table.amend [] row = row := rfl

theorem amend_cons (u : κ × χ) (updates : List (κ × χ)) (row : ρ) :
    table.amend (u :: updates) row =
      if u.1 = table.key (table.amend updates row) then table.set u.2 (table.amend updates row)
      else table.amend updates row := rfl

@[simp] theorem key_amend (updates : List (κ × χ)) (row : ρ) :
    table.key (table.amend updates row) = table.key row := by
  induction updates with
  | nil => rfl
  | cons u updates ih =>
      rw [amend_cons]
      split
      · rw [table.key_set, ih]
      · exact ih

/-- A row no update is about stays as it is. -/
theorem amend_of_notMem {updates : List (κ × χ)} {row : ρ}
    (apart : ∀ u ∈ updates, u.1 ≠ table.key row) : table.amend updates row = row := by
  induction updates with
  | nil => rfl
  | cons u updates ih =>
      have rest := ih fun v mem => apart v (List.mem_cons_of_mem _ mem)
      rw [amend_cons, rest, if_neg (apart u List.mem_cons_self)]

/-- What every update leaves as it is, all of them do. -/
theorem amend_keeps {β : Type} (f : ρ → β) (keeps : ∀ change row, f (table.set change row) = f row)
    (updates : List (κ × χ)) (row : ρ) : f (table.amend updates row) = f row := by
  induction updates with
  | nil => rfl
  | cons u updates ih =>
      rw [amend_cons]
      split
      · rw [keeps, ih]
      · exact ih

/-- A row an update is about has what one of the updates set. -/
theorem amend_of_mem {updates : List (κ × χ)} {row : ρ}
    (there : ∃ u ∈ updates, u.1 = table.key row) :
    ∃ u ∈ updates, ∃ before, table.amend updates row = table.set u.2 before := by
  induction updates with
  | nil =>
      obtain ⟨u, mem, -⟩ := there
      cases mem
  | cons u updates ih =>
      rw [amend_cons, key_amend]
      by_cases this : u.1 = table.key row
      · rw [if_pos this]
        exact ⟨u, List.mem_cons_self, _, rfl⟩
      · rw [if_neg this]
        obtain ⟨v, mem, same⟩ := there
        have below : v ∈ updates := by
          cases mem with
          | head => exact absurd same this
          | tail _ mem => exact mem
        obtain ⟨x, mem, before, shape⟩ := ih ⟨v, below, same⟩
        exact ⟨x, List.mem_cons_of_mem _ mem, before, shape⟩

/-- **Updates that withdraw rows from a selection leave the selected rows they are not about.** -/
theorem filter_amend {p : ρ → Bool} {updates : List (κ × χ)}
    (withdraws : ∀ u ∈ updates, ∀ row, p (table.set u.2 row) = false) (rows : List ρ) :
    (rows.map (table.amend updates)).filter p =
      rows.filter fun row => p row && !updates.any fun u => u.1 == table.key row := by
  induction rows with
  | nil => rfl
  | cons row rows ih =>
      rw [List.map_cons, List.filter_cons, List.filter_cons, ih]
      by_cases about : ∃ u ∈ updates, u.1 = table.key row
      · have hit : (updates.any fun u => u.1 == table.key row) = true := by
          obtain ⟨u, mem, same⟩ := about
          exact List.any_eq_true.mpr ⟨u, mem, beq_iff_eq.mpr same⟩
        obtain ⟨u, mem, before, shape⟩ := table.amend_of_mem about
        rw [shape, withdraws u mem, hit]
        simp
      · have miss : (updates.any fun u => u.1 == table.key row) = false := by
          apply List.any_eq_false.mpr
          intro u mem same
          exact about ⟨u, mem, beq_iff_eq.mp same⟩
        have same := table.amend_of_notMem fun u mem same => about ⟨u, mem, same⟩
        rw [same, miss]
        simp

/-- With the rows told apart by their keys, a key selects its row. -/
theorem filter_key {rows : List ρ} {row : ρ} (distinct : (rows.map table.key).Nodup)
    (mem : row ∈ rows) : (rows.filter fun r => table.key r == table.key row) = [row] := by
  induction rows with
  | nil => cases mem
  | cons head rows ih =>
      rw [List.map_cons, List.nodup_cons] at distinct
      cases mem with
      | head =>
          have rest : (rows.filter fun r => table.key r == table.key row) = [] := by
            apply List.filter_eq_nil_iff.mpr
            intro r there same
            apply distinct.1
            rw [← beq_iff_eq.mp same]
            exact List.mem_map_of_mem there
          rw [List.filter_cons, beq_self_eq_true, if_pos rfl, rest]
      | tail _ mem =>
          have other : (table.key head == table.key row) = false := by
            apply beq_eq_false_iff_ne.mpr
            intro same
            apply distinct.1
            rw [same]
            exact List.mem_map_of_mem mem
          rw [List.filter_cons, other, if_neg Bool.false_ne_true, ih distinct.2 mem]

/-! ## Views -/

/-- What a transaction that has inserted and updated nothing sees. -/
theorem view_quiet {p : Pending κ ρ χ} (inserts : p.inserts = []) (updates : p.updates = [])
    (rows : List ρ) : table.view p rows = rows := by
  have same : table.amend [] = id := funext fun row => table.amend_nil row
  rw [view, inserts, updates, same, List.map_id, List.nil_append]

theorem mem_view {p : Pending κ ρ χ} {rows : List ρ} {row : ρ} :
    row ∈ table.view p rows ↔
      row ∈ p.inserts ∨ ∃ before ∈ rows, table.amend p.updates before = row := by
  rw [view, List.mem_append, List.mem_map]

theorem keys_view (p : Pending κ ρ χ) (rows : List ρ) :
    (table.view p rows).map table.key = p.inserts.map table.key ++ rows.map table.key := by
  have same : table.key ∘ table.amend p.updates = table.key :=
    funext fun row => table.key_amend p.updates row
  rw [view, List.map_append, List.map_map, same]

/-- **What is selected once updates that withdraw rows are committed.** -/
theorem filter_view {q : ρ → Bool} {p : Pending κ ρ χ}
    (withdraws : ∀ u ∈ p.updates, ∀ row, q (table.set u.2 row) = false) (rows : List ρ) :
    (table.view p rows).filter q = p.inserts.filter q ++
      (rows.filter q).filter fun row => !p.updates.any fun u => u.1 == table.key row := by
  rw [view, List.filter_append, table.filter_amend withdraws, List.filter_filter]
  simp only [Bool.and_comm]

/-- The update of one row, in a transaction that has inserted and updated nothing. -/
theorem updates_single {p : Pending κ ρ χ} {rows : List ρ} {row : ρ} {change : χ}
    (updates : p.updates = []) (distinct : (rows.map table.key).Nodup) (mem : row ∈ rows) :
    (table.update p rows [table.key row] (fun r => table.key r == table.key row) change).updates =
      [(table.key row, change)] := by
  have same : table.amend [] = id := funext fun row => table.amend_nil row
  have hit : (fun r => [table.key row].contains (table.key r) &&
      (table.key r == table.key row)) = fun r => table.key r == table.key row := by
    funext r
    rw [List.contains_cons, List.contains_nil, Bool.or_false, Bool.and_self]
  rw [update, updates]
  dsimp only
  rw [same, List.map_id, hit, table.filter_key distinct mem]
  rfl

/-- A selection by what no update is about and none changes. -/
theorem filter_amend_apart {q : ρ → Bool} {updates : List (κ × χ)}
    (keeps : ∀ row, q (table.amend updates row) = q row) {rows : List ρ}
    (apart : ∀ row ∈ rows, q row = true → ∀ u ∈ updates, u.1 ≠ table.key row) :
    (rows.map (table.amend updates)).filter q = rows.filter q := by
  induction rows with
  | nil => rfl
  | cons row rows ih =>
      rw [List.map_cons, List.filter_cons, List.filter_cons, keeps,
        ih fun r mem => apart r (List.mem_cons_of_mem _ mem)]
      by_cases selected : q row = true
      · rw [if_pos selected, if_pos selected,
          table.amend_of_notMem (apart row List.mem_cons_self selected)]
      · rw [if_neg selected, if_neg selected]

/-! ## The rows a statement takes -/

/-- A matching row is found when the statement starts, or updated already. -/
theorem targets_cover {p : Pending κ ρ χ} {rows : List ρ} {matching : ρ → Bool} {row : ρ}
    (mem : row ∈ rows) (matches_ : matching row = true) :
    (∃ u ∈ p.updates, u.1 = table.key row) ∨ table.key row ∈ table.targets p rows matching := by
  by_cases done : ∃ u ∈ p.updates, u.1 = table.key row
  · exact .inl done
  · right
    have same := table.amend_of_notMem fun u mem same => done ⟨u, mem, same⟩
    apply List.mem_map_of_mem
    apply List.mem_filter.mpr ⟨table.mem_view.mpr (.inr ⟨row, mem, same⟩), matches_⟩

/-- A matching row that was found is updated when the statement ends. -/
theorem update_covers {p : Pending κ ρ χ} {rows : List ρ} {found : List κ} {matching : ρ → Bool}
    {change : χ} {row : ρ} (mem : row ∈ rows) (matches_ : matching row = true)
    (covered : (∃ u ∈ p.updates, u.1 = table.key row) ∨ table.key row ∈ found) :
    ∃ u ∈ (table.update p rows found matching change).updates, u.1 = table.key row := by
  by_cases done : ∃ u ∈ p.updates, u.1 = table.key row
  · obtain ⟨u, there, same⟩ := done
    exact ⟨u, List.mem_append_right _ there, same⟩
  · have here : table.key row ∈ found := covered.resolve_left done
    have same := table.amend_of_notMem fun u mem same => done ⟨u, mem, same⟩
    refine ⟨(table.key row, change), List.mem_append_left _ (List.mem_map.mpr ⟨row, ?_, rfl⟩), rfl⟩
    apply List.mem_filter.mpr ⟨List.mem_map.mpr ⟨row, mem, same⟩, ?_⟩
    rw [List.contains_iff_mem.mpr here, matches_]
    rfl

/-- What an UPDATE adds: its change, to a row it has found and that still matches. -/
theorem update_new {p : Pending κ ρ χ} {rows : List ρ} {found : List κ} {matching : ρ → Bool}
    {change : χ} {u : κ × χ} (mem : u ∈ (table.update p rows found matching change).updates) :
    u ∈ p.updates ∨ (u.2 = change ∧ u.1 ∈ found ∧
      ∃ row ∈ rows, table.key row = u.1 ∧ matching (table.amend p.updates row) = true) := by
  rcases List.mem_append.mp mem with new | old
  · obtain ⟨row, here, rfl⟩ := List.mem_map.mp new
    obtain ⟨amended, hit⟩ := List.mem_filter.mp here
    obtain ⟨before, there, rfl⟩ := List.mem_map.mp amended
    rw [Bool.and_eq_true] at hit
    exact .inr ⟨rfl, List.contains_iff_mem.mp hit.1, before, there,
      (table.key_amend p.updates before).symm, hit.2⟩
  · exact .inl old

/-- An amended row that matches what every update withdraws is one no update is about. -/
theorem matching_amend {matching : ρ → Bool} {updates : List (κ × χ)} {row : ρ}
    (withdraws : ∀ u ∈ updates, ∀ row, matching (table.set u.2 row) = false)
    (matches_ : matching (table.amend updates row) = true) :
    table.amend updates row = row := by
  by_cases about : ∃ u ∈ updates, u.1 = table.key row
  · obtain ⟨u, mem, before, shape⟩ := table.amend_of_mem about
    rw [shape, withdraws u mem] at matches_
    cases matches_
  · exact table.amend_of_notMem fun u mem same => about ⟨u, mem, same⟩

/-! ## Locks -/

theorem holds_update {p : Pending κ ρ χ} {rows : List ρ} {found : List κ} {matching : ρ → Bool}
    {change : χ} {k : κ} (held : (table.update p rows found matching change).holds k = true) :
    p.holds k = true ∨ k ∈ found := by
  unfold update Pending.holds at held
  rw [List.any_append, Bool.or_eq_true, Bool.or_eq_true] at held
  rcases held with locked | new | old
  · exact .inl (by rw [Pending.holds, locked, Bool.true_or])
  · obtain ⟨u, mem, same⟩ := List.any_eq_true.mp new
    obtain ⟨row, here, rfl⟩ := List.mem_map.mp mem
    have hit := (List.mem_filter.mp here).2
    rw [Bool.and_eq_true] at hit
    rw [← beq_iff_eq.mp same]
    exact .inr (List.contains_iff_mem.mp hit.1)
  · exact .inl (by rw [Pending.holds, old, Bool.or_true])

theorem holds_lock {p : Pending κ ρ χ} {rows : List ρ} {found : List κ} {matching : ρ → Bool}
    {k : κ} (held : (table.lock p rows found matching).holds k = true) :
    p.holds k = true ∨ k ∈ found := by
  unfold lock Pending.holds at held
  rw [Bool.or_eq_true] at held
  rcases held with locked | old
  · rcases List.mem_append.mp (List.contains_iff_mem.mp locked) with new | old
    · obtain ⟨row, here, rfl⟩ := List.mem_map.mp new
      have hit := (List.mem_filter.mp here).2
      rw [Bool.and_eq_true] at hit
      exact .inr (List.contains_iff_mem.mp hit.1)
    · exact .inl (by rw [Pending.holds, List.contains_iff_mem.mpr old, Bool.true_or])
  · exact .inl (by rw [Pending.holds, old, Bool.or_true])

theorem free_iff {others : List (Pending κ ρ χ)} {ks : List κ} :
    free others ks = true ↔ ∀ k ∈ ks, ∀ p ∈ others, p.holds k = false := by
  unfold free
  simp

end Table

/-! ## Sessions -/

/-- Any two sessions are related. -/
def Apart {τ : Type} (R : τ → τ → Prop) (sessions : List τ) : Prop :=
  ∀ (i j : Nat) (a b : τ), i ≠ j → sessions[i]? = some a → sessions[j]? = some b → R a b

theorem Apart.others {τ : Type} {R : τ → τ → Prop} {l : List τ} {i : Nat} {a : τ}
    (apart : Apart R l) (there : l[i]? = some a) : ∀ b ∈ l.eraseIdx i, R a b := by
  intro b mem
  obtain ⟨j, ne, here⟩ := List.mem_eraseIdx_iff_getElem?.mp mem
  exact apart i j a b ne.symm there here

/-- A session of a list with one replaced is the new one or one of the others. -/
theorem mem_set {τ : Type} {l : List τ} {i : Nat} {a x : τ} (mem : x ∈ l.set i a) :
    x = a ∨ x ∈ l.eraseIdx i := by
  obtain ⟨j, there⟩ := List.mem_iff_getElem?.mp mem
  by_cases same : i = j
  · subst same
    rw [List.getElem?_set_self'] at there
    cases old : l[i]? with
    | none => rw [old] at there; cases there
    | some _ => rw [old] at there; exact .inl (Option.some.inj there).symm
  · rw [List.getElem?_set_ne same] at there
    exact .inr (List.mem_eraseIdx_iff_getElem?.mpr ⟨j, fun h => same h.symm, there⟩)

theorem Apart.set {τ : Type} {R : τ → τ → Prop} {sessions : List τ} {i : Nat} {a : τ}
    (apart : Apart R sessions) (symm : ∀ {a b}, R a b → R b a)
    (new : ∀ b ∈ sessions.eraseIdx i, R a b) : Apart R (sessions.set i a) := by
  have other : ∀ j b, i ≠ j → (sessions.set i a)[j]? = some b → R a b := by
    intro j b ne there
    rw [List.getElem?_set_ne ne] at there
    exact new b (List.mem_eraseIdx_iff_getElem?.mpr ⟨j, ne.symm, there⟩)
  have here : ∀ j b, i = j → (sessions.set i a)[j]? = some b → b = a := by
    rintro j b rfl there
    rw [List.getElem?_set_self'] at there
    cases old : sessions[i]? with
    | none => rw [old] at there; cases there
    | some _ => rw [old] at there; exact (Option.some.inj there).symm
  intro j k x y ne first second
  by_cases left : i = j
  · rw [here j x left first]
    exact other k y (left.trans_ne ne) second
  · by_cases right : i = k
    · rw [here k y right second]
      exact symm (other j x left first)
    · rw [List.getElem?_set_ne left] at first
      rw [List.getElem?_set_ne right] at second
      exact apart j k x y ne first second

theorem Apart.push {τ : Type} {R : τ → τ → Prop} {sessions : List τ} {a : τ}
    (apart : Apart R sessions) (symm : ∀ {a b}, R a b → R b a) (new : ∀ b ∈ sessions, R a b) :
    Apart R (sessions ++ [a]) := by
  have cases_ : ∀ j b, (sessions ++ [a])[j]? = some b →
      sessions[j]? = some b ∨ (j = sessions.length ∧ b = a) := by
    intro j b there
    rcases Nat.lt_or_ge j sessions.length with below | above
    · rw [List.getElem?_append_left below] at there
      exact .inl there
    · rw [List.getElem?_append_right above] at there
      cases step : j - sessions.length with
      | zero =>
          rw [step] at there
          exact .inr ⟨by omega, (Option.some.inj there).symm⟩
      | succ n => rw [step] at there; cases there
  intro j k x y ne first second
  rcases cases_ j x first with old | ⟨atEnd, rfl⟩
  · rcases cases_ k y second with old' | ⟨atEnd', rfl⟩
    · exact apart j k x y ne old old'
    · exact symm (new x (List.mem_of_getElem? old))
  · rcases cases_ k y second with old' | ⟨atEnd', rfl⟩
    · exact new y (List.mem_of_getElem? old')
    · omega

end

end OpsAssist.Theory
