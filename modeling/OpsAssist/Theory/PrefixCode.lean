/-
# OpsAssist.Theory.PrefixCode -- texts that can be cut off a longer text

A rendering that stands inside a larger text is recovered from it in one of two
ways.  A *run* ends where a character outside its alphabet follows (`Stops`,
`run_cut`): numerals and bare words.  A *prefix-free* rendering ends by itself
(`PrefixFree`): escapes, and lists of them closed by a character none of them
begins with (`PrefixFree.closed`): quoted strings.
-/
import Mathlib.Data.List.Basic
import Mathlib.Tactic.Cases

namespace OpsAssist.Theory

set_option autoImplicit false

/-! ## Runs over an alphabet -/

/-- The text is at its end or goes on with a character outside the alphabet. -/
def Stops (alphabet : Char → Bool) : List Char → Prop
  | [] => True
  | c :: _ => alphabet c = false

/-- Two runs over an alphabet that stop are equal as soon as the texts they open are. -/
theorem run_cut {alphabet : Char → Bool} : ∀ {run run' rest rest' : List Char},
    (∀ c ∈ run, alphabet c = true) → (∀ c ∈ run', alphabet c = true) →
    Stops alphabet rest → Stops alphabet rest' → run ++ rest = run' ++ rest' →
    run = run' ∧ rest = rest'
  | [], [], _, _, _, _, _, _, same => ⟨rfl, same⟩
  | [], d :: _, rest, _, _, inside', stop, _, same => by
      simp only [List.nil_append] at same
      subst same
      have member := inside' d (by simp)
      simp [Stops, member] at stop
  | c :: _, [], _, rest', inside, _, _, stop', same => by
      simp only [List.nil_append] at same
      subst same
      have member := inside c (by simp)
      simp [Stops, member] at stop'
  | c :: run, d :: run', rest, rest', inside, inside', stop, stop', same => by
      simp only [List.cons_append, List.cons.injEq] at same
      obtain ⟨rfl, tails⟩ := same
      have ⟨runs, rests⟩ := run_cut
        (fun x mem => inside x (List.mem_cons_of_mem _ mem))
        (fun x mem => inside' x (List.mem_cons_of_mem _ mem)) stop stop' tails
      exact ⟨by rw [runs], rests⟩

/-! ## Prefix-free renderings -/

/-- The rendering can be split off the front of any longer text. -/
def PrefixFree {α : Type} (f : α → List Char) : Prop :=
  ∀ (a b : α) (s t : List Char), f a ++ s = f b ++ t → a = b ∧ s = t

theorem PrefixFree.injective {α : Type} {f : α → List Char} (free : PrefixFree f) {a b : α}
    (same : f a = f b) : a = b :=
  (free a b [] [] (by rw [same])).1

/-- Fixed width and injectivity make a rendering prefix-free. -/
theorem prefixFree_of_width {α : Type} {f : α → List Char} (width : Nat)
    (fixed : ∀ a, (f a).length = width) (injective : ∀ a b, f a = f b → a = b) :
    PrefixFree f := by
  intro a b s t same
  obtain ⟨heads, tails⟩ := List.append_inj same (by rw [fixed, fixed])
  exact ⟨injective a b heads, tails⟩

/-- A list rendered item by item and closed by a character that begins no item
can be split off any longer text. -/
theorem PrefixFree.closed {α : Type} {f : α → List Char} (free : PrefixFree f) {close : Char}
    (opens : ∀ a, ∃ c cs, f a = c :: cs ∧ c ≠ close) :
    ∀ (xs ys : List α) (s t : List Char),
      xs.flatMap f ++ close :: s = ys.flatMap f ++ close :: t → xs = ys ∧ s = t
  | [], [], s, t, same => by
      simp only [List.flatMap_nil, List.nil_append, List.cons.injEq, true_and] at same
      exact ⟨rfl, same⟩
  | [], y :: ys, s, t, same => by
      simp only [List.flatMap_nil, List.nil_append, List.flatMap_cons, List.append_assoc] at same
      obtain ⟨c, cs, shape, other⟩ := opens y
      simp only [shape, List.cons_append, List.cons.injEq] at same
      exact absurd same.1.symm other
  | x :: xs, [], s, t, same => by
      simp only [List.flatMap_nil, List.nil_append, List.flatMap_cons, List.append_assoc] at same
      obtain ⟨c, cs, shape, other⟩ := opens x
      simp only [shape, List.cons_append, List.cons.injEq] at same
      exact absurd same.1 other
  | x :: xs, y :: ys, s, t, same => by
      simp only [List.flatMap_cons, List.append_assoc] at same
      obtain ⟨rfl, tails⟩ := free x y _ _ same
      obtain ⟨rfl, ends⟩ := PrefixFree.closed free opens xs ys s t tails
      exact ⟨rfl, ends⟩

end OpsAssist.Theory
