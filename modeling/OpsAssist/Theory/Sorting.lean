/-
# OpsAssist.Theory.Sorting -- loops over steps that may fail

`List.mapM` stops at the first step that fails (`mapM_ok_iff`, `mapM_error_iff`).  `sortBy` is a
stable sort by a comparison that may fail: what comes out is a permutation (`sortBy_perm`), an
exception is that of a comparison (`sortBy_raised`), and elements that a linear order compares
come out in this order (`sortBy_sorted`).

`perm_range_of_mem` is the pigeonhole for lists: a list that has a place for each of as many
distinct values has nothing else.
-/
import Mathlib.Data.List.Sort
import Mathlib.Order.Monotone.Defs

namespace OpsAssist.Theory

set_option autoImplicit false

variable {α β ε : Type}

/-! ## Mapping -/

section

variable {f : α → Except ε β}

theorem mapM_ok_iff : ∀ {as : List α} {bs : List β},
    as.mapM f = .ok bs ↔ List.Forall₂ (fun a b => f a = .ok b) as bs
  | [], bs => by simp [pure, Except.pure, eq_comm]
  | a :: as, bs => by
      rw [List.mapM_cons, List.forall₂_cons_left_iff]
      cases first : f a with
      | error e => simp [bind, Except.bind]
      | ok b =>
          cases rest : as.mapM f with
          | error e =>
              have none : ∀ cs, ¬List.Forall₂ (fun a b => f a = .ok b) as cs := fun cs each => by
                simp [mapM_ok_iff.mpr each] at rest
              simp [bind, Except.bind, none]
          | ok cs =>
              have each := mapM_ok_iff.mp rest
              simp only [bind, Except.bind, pure, Except.pure, Except.ok.injEq]
              constructor
              · rintro rfl
                exact ⟨b, cs, rfl, each, rfl⟩
              · rintro ⟨b', cs', rfl, each', rfl⟩
                have same := (mapM_ok_iff.mpr each').symm.trans rest
                cases same
                rfl

/-- Each element gives the result at its place. -/
theorem mapM_ok_at {as : List α} {bs : List β} (done : as.mapM f = .ok bs) :
    bs.length = as.length ∧
      ∀ i (left : i < as.length) (right : i < bs.length), f as[i] = .ok bs[i] := by
  have pairs := mapM_ok_iff.mp done
  exact ⟨pairs.length_eq.symm, fun i left right => pairs.get left right⟩

/-- The first failing step decides. -/
theorem mapM_error_iff {e : ε} : ∀ {as : List α},
    as.mapM f = .error e ↔ ∃ front a back, as = front ++ a :: back ∧
      (∀ b ∈ front, ∃ c, f b = .ok c) ∧ f a = .error e
  | [] => by simp [pure, Except.pure]
  | a :: as => by
      rw [List.mapM_cons]
      cases first : f a with
      | error e' =>
          simp only [bind, Except.bind, Except.error.injEq]
          constructor
          · rintro rfl
            exact ⟨[], a, as, rfl, nofun, first⟩
          · rintro ⟨front, b, back, shape, before, failed⟩
            cases front with
            | nil => cases shape; exact Except.error.inj (first.symm.trans failed)
            | cons c front =>
                cases shape
                obtain ⟨d, passed⟩ := before _ List.mem_cons_self
                simp [first] at passed
      | ok b =>
          have step : (do return b :: (← as.mapM f) : Except ε (List β)) = .error e ↔
              as.mapM f = .error e := by
            cases as.mapM f <;> simp [bind, Except.bind, pure, Except.pure]
          refine step.trans (mapM_error_iff.trans ?_)
          constructor
          · rintro ⟨front, c, back, rfl, before, failed⟩
            refine ⟨a :: front, c, back, rfl, fun d mem => ?_, failed⟩
            rcases List.mem_cons.mp mem with rfl | mem
            · exact ⟨b, first⟩
            · exact before d mem
          · rintro ⟨front, c, back, shape, before, failed⟩
            cases front with
            | nil => cases shape; simp [first] at failed
            | cons d front =>
                cases shape
                exact ⟨front, c, back, rfl,
                  fun x mem => before x (List.mem_cons_of_mem _ mem), failed⟩

end

/-! ## Sorting -/

/-- Behind the elements that are not greater. -/
def insertBy (less : α → α → Except ε Bool) (a : α) : List α → Except ε (List α)
  | [] => .ok [a]
  | b :: bs => do
      if ← less a b then return a :: b :: bs
      else return b :: (← insertBy less a bs)

def sortFrom (less : α → α → Except ε Bool) (sorted : List α) : List α → Except ε (List α)
  | [] => .ok sorted
  | a :: as => do sortFrom less (← insertBy less a sorted) as

/-- A stable sort by `less`. -/
def sortBy (less : α → α → Except ε Bool) (as : List α) : Except ε (List α) := sortFrom less [] as

section

variable {less : α → α → Except ε Bool}

/-- An element goes before one it is less than, or behind it. -/
theorem insertBy_cons {a b : α} {bs : List α} {smaller : Bool} (compared : less a b = .ok smaller) :
    insertBy less a (b :: bs) =
      if smaller then .ok (a :: b :: bs) else (insertBy less a bs).map (b :: ·) := by
  rw [insertBy, compared]
  cases smaller with
  | true => rfl
  | false => cases insertBy less a bs <;> rfl

theorem insertBy_perm {a : α} : ∀ {bs out : List α}, insertBy less a bs = .ok out →
    out.Perm (a :: bs)
  | [], _, done => by cases done; exact .refl _
  | b :: bs, out, done => by
      cases compared : less a b with
      | error e => simp [insertBy, compared, bind, Except.bind] at done
      | ok smaller =>
          rw [insertBy_cons compared] at done
          cases smaller with
          | true => cases done; exact .refl _
          | false =>
              cases rest : insertBy less a bs with
              | error e => simp [rest, Except.map] at done
              | ok cs =>
                  have out_eq : b :: cs = out := by simpa [rest, Except.map] using done
                  rw [← out_eq]
                  exact ((insertBy_perm rest).cons b).trans (.swap a b bs)

theorem sortFrom_perm : ∀ {as sorted out : List α}, sortFrom less sorted as = .ok out →
    out.Perm (sorted ++ as)
  | [], sorted, _, done => by
      cases done
      rw [List.append_nil]
  | a :: as, sorted, out, done => by
      rw [sortFrom] at done
      cases inserted : insertBy less a sorted with
      | error e => simp [inserted, bind, Except.bind] at done
      | ok sorted' =>
          have rest : sortFrom less sorted' as = .ok out := by
            simpa [inserted, bind, Except.bind] using done
          exact (sortFrom_perm rest).trans
            (((insertBy_perm inserted).append_right as).trans List.perm_middle.symm)

theorem sortBy_perm {as out : List α} (done : sortBy less as = .ok out) : out.Perm as :=
  sortFrom_perm done

theorem insertBy_raised {a : α} {e : ε} : ∀ {bs : List α}, insertBy less a bs = .error e →
    ∃ b c, less b c = .error e
  | [], raised => by cases raised
  | b :: bs, raised => by
      cases compared : less a b with
      | error e' =>
          simp only [insertBy, compared, bind, Except.bind, Except.error.injEq] at raised
          exact ⟨a, b, by rw [compared, raised]⟩
      | ok smaller =>
          rw [insertBy_cons compared] at raised
          cases smaller with
          | true => cases raised
          | false =>
              cases rest : insertBy less a bs with
              | ok cs => simp [rest, Except.map] at raised
              | error e' =>
                  have same : e' = e := by simpa [rest, Except.map] using raised
                  exact insertBy_raised (same ▸ rest)

theorem sortFrom_raised {e : ε} : ∀ {as sorted : List α}, sortFrom less sorted as = .error e →
    ∃ b c, less b c = .error e
  | [], _, raised => by cases raised
  | a :: as, sorted, raised => by
      rw [sortFrom] at raised
      cases inserted : insertBy less a sorted with
      | error e' =>
          simp only [inserted, bind, Except.bind, Except.error.injEq] at raised
          exact insertBy_raised (raised ▸ inserted)
      | ok sorted' =>
          have rest : sortFrom less sorted' as = .error e := by
            simpa [inserted, bind, Except.bind] using raised
          exact sortFrom_raised rest

/-- An exception is that of a comparison. -/
theorem sortBy_raised {as : List α} {e : ε} (raised : sortBy less as = .error e) :
    ∃ b c, less b c = .error e := sortFrom_raised raised

/-! ## Elements of a linear order -/

section

variable {γ : Type} [LinearOrder γ] {key : α → γ} {p : α → Prop}
  (compares : ∀ a b, p a → p b → less a b = .ok (decide (key a < key b)))

include compares

theorem insertBy_sorted {a : α} (here : p a) : ∀ {bs : List α}, (∀ b ∈ bs, p b) →
    bs.Pairwise (key · ≤ key ·) → ∃ out, insertBy less a bs = .ok out ∧
      out.Pairwise (key · ≤ key ·)
  | [], _, _ => ⟨[a], rfl, List.pairwise_singleton _ _⟩
  | b :: bs, all, sorted => by
      rw [List.pairwise_cons] at sorted
      rw [insertBy_cons (compares a b here (all b List.mem_cons_self))]
      by_cases smaller : key a < key b
      · refine ⟨a :: b :: bs, by simp [smaller], ?_⟩
        refine List.pairwise_cons.mpr ⟨fun c mem => ?_, List.pairwise_cons.mpr sorted⟩
        rcases List.mem_cons.mp mem with rfl | mem
        · exact smaller.le
        · exact smaller.le.trans (sorted.1 c mem)
      · obtain ⟨cs, inserted, ordered⟩ := insertBy_sorted here
          (fun c mem => all c (List.mem_cons_of_mem _ mem)) sorted.2
        refine ⟨b :: cs, by simp [smaller, inserted, Except.map], ?_⟩
        refine List.pairwise_cons.mpr ⟨fun c mem => ?_, ordered⟩
        rcases List.mem_cons.mp ((insertBy_perm inserted).subset mem) with rfl | mem
        · exact not_lt.mp smaller
        · exact sorted.1 c mem

theorem sortFrom_sorted : ∀ {as sorted : List α}, (∀ a ∈ as, p a) → (∀ a ∈ sorted, p a) →
    sorted.Pairwise (key · ≤ key ·) → ∃ out, sortFrom less sorted as = .ok out ∧
      out.Pairwise (key · ≤ key ·)
  | [], sorted, _, _, ordered => ⟨sorted, rfl, ordered⟩
  | a :: as, sorted, all, before, ordered => by
      have here := all a List.mem_cons_self
      obtain ⟨sorted', inserted, ordered'⟩ :=
        insertBy_sorted compares here before ordered
      obtain ⟨out, done, final⟩ := sortFrom_sorted
        (fun b mem => all b (List.mem_cons_of_mem _ mem))
        (fun b mem => by
          rcases List.mem_cons.mp ((insertBy_perm inserted).subset mem) with rfl | mem
          · exact here
          · exact before b mem) ordered'
      exact ⟨out, by simp [sortFrom, inserted, bind, Except.bind, done], final⟩

/-- **Elements that a linear order compares come out in this order.** -/
theorem sortBy_sorted {as : List α} (all : ∀ a ∈ as, p a) :
    ∃ out, sortBy less as = .ok out ∧ out.Pairwise (key · ≤ key ·) :=
  sortFrom_sorted compares all nofun .nil

end

end

/-! ## Pigeonhole -/

/-- A list no longer than the distinct values it has is these values. -/
theorem perm_range_of_mem {f : ℕ → α} (distinct : Function.Injective f) {n : ℕ} {as : List α}
    (short : as.length ≤ n) (all : ∀ i < n, f i ∈ as) : as.Perm ((List.range n).map f) := by
  have nodup : ((List.range n).map f).Nodup := List.nodup_range.map distinct
  have subset : (List.range n).map f ⊆ as := fun a mem => by
    obtain ⟨i, bound, rfl⟩ := List.mem_map.mp mem
    exact all i (List.mem_range.mp bound)
  exact ((List.subperm_of_subset nodup subset).perm_of_length_le (by simpa using short)).symm

theorem pairwise_map_range [Preorder α] {f : ℕ → α} (mono : Monotone f) (n : ℕ) :
    ((List.range n).map f).Pairwise (· ≤ ·) :=
  List.pairwise_map.mpr (List.pairwise_lt_range.imp fun less => mono less.le)

/-- **As many elements as keys**: one sorted list has them at their places. -/
theorem sorted_at {γ : Type} [LinearOrder γ] {key : α → γ} {f : ℕ → γ} (mono : StrictMono f)
    {as : List α} (all : ∀ i < as.length, ∃ a ∈ as, key a = f i)
    (sorted : as.Pairwise (key · ≤ key ·)) {i : ℕ} (bound : i < as.length) :
    key as[i] = f i := by
  have perm : (as.map key).Perm ((List.range as.length).map f) := by
    refine perm_range_of_mem mono.injective (by simp) fun i bound => ?_
    obtain ⟨a, mem, there⟩ := all i bound
    exact List.mem_map.mpr ⟨a, mem, there⟩
  have same : as.map key = (List.range as.length).map f :=
    perm.eq_of_pairwise (fun _ _ _ _ => le_antisymm) (List.pairwise_map.mpr sorted)
      (pairwise_map_range mono.monotone as.length)
  have places := congrArg (fun keys => keys[i]?) same
  simpa [bound] using places

end OpsAssist.Theory
