/-
# OpsAssist.Theory.Grouping -- the first of each key, and dictionaries in insertion order

`leaders` walks a list with the set of keys seen, as a loop that drops repeats does.
`upsert` touches the entry of a key, a new one at the end when there is none.  A fold of
`upsert` is one entry for each leader, touched by all that share its key (`foldl_upsert`).
-/
import Mathlib.Data.List.Induction
import Mathlib.Data.List.Nodup
import Mathlib.Data.List.Perm.Subperm

namespace OpsAssist.Theory

set_option autoImplicit false

variable {α β κ : Type} [DecidableEq κ]

/-! ## The first of each key -/

/-- The first element of each key that is not seen yet. -/
def leaders (key : α → κ) : List κ → List α → List α
  | _, [] => []
  | seen, a :: l =>
      if key a ∈ seen then leaders key seen l else a :: leaders key (key a :: seen) l

variable {key : α → κ}

theorem leaders_sublist : ∀ (seen : List κ) (l : List α), (leaders key seen l).Sublist l
  | _, [] => .slnil
  | seen, a :: l => by
      rw [leaders]
      split
      · exact (leaders_sublist seen l).cons a
      · exact (leaders_sublist (key a :: seen) l).cons_cons a

theorem mem_of_leaders {seen : List κ} {l : List α} {a : α} (mem : a ∈ leaders key seen l) :
    a ∈ l :=
  (leaders_sublist seen l).subset mem

theorem leaders_fresh : ∀ {seen : List κ} {l : List α} {a : α},
    a ∈ leaders key seen l → key a ∉ seen
  | _, [], _, mem => absurd mem List.not_mem_nil
  | seen, b :: l, a, mem => by
      rw [leaders] at mem
      split at mem
      · exact leaders_fresh mem
      case isFalse new =>
        rcases List.mem_cons.mp mem with rfl | later
        · exact new
        · intro old
          exact leaders_fresh later (List.mem_cons_of_mem _ old)

/-- No two leaders share a key. -/
theorem leaders_keys_nodup : ∀ (seen : List κ) (l : List α), ((leaders key seen l).map key).Nodup
  | _, [] => List.nodup_nil
  | seen, a :: l => by
      rw [leaders]
      split
      · exact leaders_keys_nodup seen l
      · rw [List.map_cons, List.nodup_cons]
        refine ⟨?_, leaders_keys_nodup _ l⟩
        intro again
        obtain ⟨b, later, same⟩ := List.mem_map.mp again
        exact leaders_fresh later (same ▸ List.mem_cons_self)

/-- In a list ordered by `R`, every element has a leader of its key that is no worse. -/
theorem leaders_best {R : α → α → Prop} : ∀ {seen : List κ} {l : List α} {a : α},
    l.Pairwise R → a ∈ l → key a ∉ seen →
      ∃ b ∈ leaders key seen l, key b = key a ∧ (b = a ∨ R b a)
  | _, [], _, _, mem, _ => absurd mem List.not_mem_nil
  | seen, c :: l, a, ordered, mem, fresh => by
      obtain ⟨first, rest⟩ := List.pairwise_cons.mp ordered
      rw [leaders]
      by_cases same : key c = key a
      · rw [if_neg (same ▸ fresh)]
        refine ⟨c, List.mem_cons_self, same, ?_⟩
        rcases List.mem_cons.mp mem with rfl | later
        · exact .inl rfl
        · exact .inr (first a later)
      · have later : a ∈ l := (List.mem_cons.mp mem).resolve_left fun eq => same (eq ▸ rfl)
        split
        · exact leaders_best rest later fresh
        · have unseen : key a ∉ key c :: seen := by
            intro old
            rcases List.mem_cons.mp old with here | there
            · exact same here.symm
            · exact fresh there
          obtain ⟨b, leads, shares, best⟩ := leaders_best rest later unseen
          exact ⟨b, List.mem_cons_of_mem _ leads, shares, best⟩

theorem leaders_cover {seen : List κ} {l : List α} {a : α} (mem : a ∈ l) (fresh : key a ∉ seen) :
    ∃ b ∈ leaders key seen l, key b = key a := by
  have any : l.Pairwise fun _ _ => True := List.pairwise_of_forall fun _ _ => trivial
  obtain ⟨b, leads, same, -⟩ := leaders_best any mem fresh
  exact ⟨b, leads, same⟩

theorem mem_leaders_keys {l : List α} {k : κ} :
    k ∈ (leaders key [] l).map key ↔ k ∈ l.map key := by
  constructor
  · intro mem
    obtain ⟨a, leads, rfl⟩ := List.mem_map.mp mem
    exact List.mem_map_of_mem (mem_of_leaders leads)
  · intro mem
    obtain ⟨a, there, rfl⟩ := List.mem_map.mp mem
    obtain ⟨b, leads, same⟩ : ∃ b ∈ leaders key [] l, key b = key a :=
      leaders_cover there List.not_mem_nil
    exact List.mem_map.mpr ⟨b, leads, same⟩

/-- Which keys are seen matters, not in which order. -/
theorem leaders_congr : ∀ {seen others : List κ} (l : List α),
    (∀ k, k ∈ seen ↔ k ∈ others) → leaders key seen l = leaders key others l
  | _, _, [], _ => rfl
  | seen, others, a :: l, same => by
      rw [leaders, leaders, leaders_congr l same]
      have more : ∀ k, k ∈ key a :: seen ↔ k ∈ key a :: others := by
        intro k
        rw [List.mem_cons, List.mem_cons, same k]
      rw [leaders_congr l more]
      simp only [same]

/-- The leaders of a longer list: those of its first part, then those of keys not in it. -/
theorem leaders_append : ∀ (seen : List κ) (l m : List α),
    leaders key seen (l ++ m) = leaders key seen l ++ leaders key (l.map key ++ seen) m
  | _, [], _ => rfl
  | seen, a :: l, m => by
      rw [List.cons_append, leaders, leaders]
      by_cases old : key a ∈ seen
      · rw [if_pos old, if_pos old, leaders_append seen l m]
        congr 1
        apply leaders_congr
        intro k
        simp only [List.map_cons, List.cons_append, List.mem_cons, List.mem_append]
        constructor
        · exact .inr
        · rintro (rfl | h)
          · exact .inr old
          · exact h
      · rw [if_neg old, if_neg old, leaders_append (key a :: seen) l m, List.cons_append]
        congr 2
        apply leaders_congr
        intro k
        simp only [List.map_cons, List.cons_append, List.mem_cons, List.mem_append]
        exact or_left_comm

/-- Touch the entry of a key, a new one when there is none. -/
def upsert (keyOf : β → κ) (k : κ) (fresh : β) (touch : β → β) : List β → List β
  | [] => [touch fresh]
  | b :: rest => if keyOf b = k then touch b :: rest else b :: upsert keyOf k fresh touch rest

section

variable {keyOf : β → κ} {k : κ} {fresh : β} {touch : β → β}

theorem upsert_of_not_mem : ∀ {dict : List β}, k ∉ dict.map keyOf →
    upsert keyOf k fresh touch dict = dict ++ [touch fresh]
  | [], _ => rfl
  | b :: rest, absent => by
      obtain ⟨other, later⟩ := not_or.mp (fun h => absent (List.mem_cons.mpr h))
      rw [upsert, if_neg (Ne.symm other), upsert_of_not_mem later, List.cons_append]

theorem upsert_of_mem : ∀ {dict : List β}, (dict.map keyOf).Nodup → k ∈ dict.map keyOf →
    upsert keyOf k fresh touch dict = dict.map fun b => if keyOf b = k then touch b else b
  | [], _, mem => absurd mem List.not_mem_nil
  | b :: rest, once, mem => by
      obtain ⟨alone, apart⟩ := List.nodup_cons.mp once
      rw [upsert, List.map_cons]
      by_cases here : keyOf b = k
      · have unchanged : (rest.map fun b => if keyOf b = k then touch b else b) = rest.map id := by
          apply List.map_congr_left
          intro c later
          refine if_neg ?_
          intro same
          apply alone
          rw [here, ← same]
          exact List.mem_map_of_mem later
        rw [if_pos here, if_pos here, unchanged, List.map_id]
      · have later : k ∈ rest.map keyOf :=
          (List.mem_cons.mp mem).resolve_left (Ne.symm here)
        rw [if_neg here, if_neg here, upsert_of_mem apart later]

end

/-- What a dictionary holds for the key of `a`, once all of `l` have touched theirs. -/
def gathered (key : α → κ) (fresh : α → β) (touch : α → β → β) (l : List α) (a : α) : β :=
  (l.filter fun x => key x = key a).foldl (fun b x => touch x b) (fresh a)

/-- **A fold of `upsert` gathers, for each leader, all that shares its key.** -/
theorem foldl_upsert {keyOf : β → κ} {fresh : α → β} {touch : α → β → β}
    (keyed : ∀ a, keyOf (fresh a) = key a) (kept : ∀ a b, keyOf (touch a b) = keyOf b)
    (l : List α) :
    l.foldl (fun dict a => upsert keyOf (key a) (fresh a) (touch a) dict) [] =
      (leaders key [] l).map (gathered key fresh touch l) := by
  have gathers : ∀ (m : List α) (a : α), keyOf (gathered key fresh touch m a) = key a := by
    intro m a
    unfold gathered
    generalize (m.filter fun x => key x = key a) = xs
    rw [← keyed a]
    generalize fresh a = b
    induction xs generalizing b with
    | nil => rfl
    | cons x xs ih => rw [List.foldl_cons, ih, kept]
  induction l using List.reverseRec with
  | nil => rfl
  | append_singleton l x ih =>
      have keys : ((leaders key [] l).map (gathered key fresh touch l)).map keyOf =
          (leaders key [] l).map key := by
        rw [List.map_map]
        exact List.map_congr_left fun a _ => gathers l a
      have step : ∀ a, gathered key fresh touch (l ++ [x]) a =
          if key x = key a then touch x (gathered key fresh touch l a)
          else gathered key fresh touch l a := by
        intro a
        unfold gathered
        by_cases same : key x = key a
        · simp [List.filter_append, same]
        · simp [List.filter_append, same]
      rw [List.foldl_append, List.foldl_cons, List.foldl_nil, ih, leaders_append, List.append_nil]
      by_cases old : key x ∈ l.map key
      · have none_new : leaders key (l.map key) [x] = [] := by
          rw [leaders, if_pos old]
          rfl
        rw [none_new, List.append_nil, upsert_of_mem (keys ▸ leaders_keys_nodup [] l)
          (keys ▸ mem_leaders_keys.mpr old), List.map_map]
        apply List.map_congr_left
        intro a _
        rw [Function.comp_apply, gathers, step a]
        simp only [eq_comm]
      · have one_new : leaders key (l.map key) [x] = [x] := by
          rw [leaders, if_neg old]
          rfl
        have alone : (l.filter fun y => key y = key x) = [] := by
          rw [List.filter_eq_nil_iff]
          intro y mem same
          exact old (of_decide_eq_true same ▸ List.mem_map_of_mem mem)
        rw [one_new, upsert_of_not_mem (keys ▸ fun h => old (mem_leaders_keys.mp h)),
          List.map_append]
        congr 1
        · apply List.map_congr_left
          intro a leads
          rw [step a, if_neg]
          intro same
          exact old (same ▸ List.mem_map_of_mem (mem_of_leaders leads))
        · rw [List.map_singleton, step x, if_pos rfl]
          unfold gathered
          rw [alone]
          rfl

end OpsAssist.Theory
