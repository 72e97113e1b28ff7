/-
# OpsAssist.Theory.Packing -- greedy packing into consecutive groups

`packFrom` fills a group until the next element would break it, and goes on with what it
carries over: nothing, or an overlap with the group it closed.

`packFrom_united`: the groups, each less what it took over, put together are the list.
`packFrom_linked`: a group begins with what the one before it hands on.  `packFrom_fits`:
what was added to a group did not break it.  `packFrom_together` and `packFrom_adjacent`
say which neighbours share a group.
-/
import Mathlib.Data.List.Chain
import Mathlib.Data.List.Infix

namespace OpsAssist.Theory

set_option autoImplicit false

variable {α : Type}

/-- Fill groups greedily: before an element that breaks the current group the group is
closed, and the next one begins with what is carried over. -/
def packFrom (breaks : List α → α → Bool) (carry : List α → List α) :
    List α → List α → List (List α)
  | current, [] => if current.isEmpty then [] else [current]
  | current, a :: l =>
      if !current.isEmpty && breaks current a then
        current :: packFrom breaks carry (carry current ++ [a]) l
      else packFrom breaks carry (current ++ [a]) l

/-- The groups put together, each less what it took over. -/
def united (carry : List α → List α) : List (List α) → List α
  | [] => []
  | [g] => g
  | g :: h :: rest => g ++ (united carry (h :: rest)).drop (carry g).length

/-- Nothing of a group beyond its first `n + 1` elements broke it. -/
def Unbroken (breaks : List α → α → Bool) (n : Nat) (g : List α) : Prop :=
  ∀ init a rest, g = init ++ a :: rest → n < init.length → breaks init a = false

variable {breaks : List α → α → Bool} {carry : List α → List α}

theorem packFrom_nil {current : List α} (held : current ≠ []) :
    packFrom breaks carry current [] = [current] := by
  rw [packFrom, if_neg]
  simpa using held

variable (breaks carry) in
/-- The next element joins the current group, or begins one behind what is carried over. -/
theorem packFrom_cons (current : List α) (a : α) (l : List α) :
    (current ≠ [] ∧ breaks current a = true ∧
      packFrom breaks carry current (a :: l) =
        current :: packFrom breaks carry (carry current ++ [a]) l) ∨
    ((current = [] ∨ breaks current a = false) ∧
      packFrom breaks carry current (a :: l) = packFrom breaks carry (current ++ [a]) l) := by
  by_cases closed : (!current.isEmpty && breaks current a) = true
  · obtain ⟨held, broken⟩ := Bool.and_eq_true_iff.mp closed
    refine .inl ⟨by simpa using held, broken, ?_⟩
    rw [packFrom, if_pos closed]
  · refine .inr ⟨?_, by rw [packFrom, if_neg closed]⟩
    cases current with
    | nil => exact .inl rfl
    | cons b rest => exact .inr (by simpa using closed)

/-- Where every element breaks a group, each is a group of its own. -/
theorem packFrom_each (always : ∀ current a, current ≠ [] → breaks current a = true)
    (l : List α) : packFrom breaks (fun _ => []) [] l = l.map fun a => [a] := by
  have behind : ∀ (l : List α) (b : α),
      packFrom breaks (fun _ => []) [b] l = [b] :: l.map fun a => [a] := by
    intro l
    induction l with
    | nil => exact fun b => packFrom_nil (List.cons_ne_nil b [])
    | cons a l ih =>
        intro b
        have broken := always [b] a (List.cons_ne_nil b [])
        rw [packFrom, List.isEmpty_cons, broken, if_pos (by decide), List.nil_append, ih a,
          List.map_cons]
  cases l with
  | nil => rfl
  | cons a l =>
      rw [packFrom, List.isEmpty_nil, if_neg (by simp), List.nil_append, behind, List.map_cons]

variable (breaks carry) in
/-- The first group begins with the current one. -/
theorem packFrom_head : ∀ (l : List α) {current : List α}, current ≠ [] →
    ∃ more rest, packFrom breaks carry current l = (current ++ more) :: rest
  | [], current, held => ⟨[], [], by rw [packFrom_nil held, List.append_nil]⟩
  | a :: l, current, held => by
      rcases packFrom_cons breaks carry current a l with
        ⟨-, -, eq⟩ | ⟨-, eq⟩
      · exact ⟨[], _, by rw [eq, List.append_nil]⟩
      · obtain ⟨more, rest, eq'⟩ := packFrom_head l (List.append_ne_nil_of_right_ne_nil current
          (List.cons_ne_nil a []))
        exact ⟨a :: more, rest, by rw [eq, eq', List.append_assoc, List.singleton_append]⟩

theorem packFrom_ne_nil : ∀ (l : List α) (current : List α),
    ∀ g ∈ packFrom breaks carry current l, g ≠ []
  | [], current, g, mem => by
      rw [packFrom] at mem
      split at mem
      · cases mem
      · rename_i held
        rw [List.mem_singleton.mp mem]
        simpa using held
  | a :: l, current, g, mem => by
      rcases packFrom_cons breaks carry current a l with
        ⟨held, -, eq⟩ | ⟨-, eq⟩
      · rw [eq] at mem
        rcases List.mem_cons.mp mem with rfl | later
        · exact held
        · exact packFrom_ne_nil l _ g later
      · rw [eq] at mem
        exact packFrom_ne_nil l _ g mem

/-- **The groups put together are the list.** -/
theorem packFrom_united : ∀ (l current : List α),
    united carry (packFrom breaks carry current l) = current ++ l
  | [], current => by
      rw [packFrom]
      split
      · rename_i none
        rw [List.isEmpty_iff.mp none]
        rfl
      · exact (List.append_nil current).symm
  | a :: l, current => by
      rcases packFrom_cons breaks carry current a l with
        ⟨-, -, eq⟩ | ⟨-, eq⟩
      · have joins := packFrom_united l (carry current ++ [a])
        obtain ⟨more, rest, shape⟩ := packFrom_head breaks carry l
          (List.append_ne_nil_of_right_ne_nil (carry current) (List.cons_ne_nil a []))
        rw [eq]
        rw [shape] at joins ⊢
        rw [united, joins, List.append_assoc, List.drop_left]
        rfl
      · rw [eq, packFrom_united l (current ++ [a]), List.append_assoc, List.singleton_append]

theorem united_nothing : ∀ gs : List (List α), united (fun _ => []) gs = gs.flatten
  | [] => rfl
  | [g] => by simp [united]
  | g :: h :: rest => by
      rw [united, united_nothing (h :: rest)]
      simp

/-- A group begins with what the one before it hands on, and holds more. -/
theorem packFrom_linked : ∀ (l current : List α),
    (packFrom breaks carry current l).IsChain fun g h => ∃ a more, h = carry g ++ a :: more
  | [], current => by
      rw [packFrom]
      split
      · exact .nil
      · exact .singleton _
  | a :: l, current => by
      rcases packFrom_cons breaks carry current a l with
        ⟨-, -, eq⟩ | ⟨-, eq⟩
      · have later := packFrom_linked l (carry current ++ [a])
        obtain ⟨more, rest, shape⟩ := packFrom_head breaks carry l
          (List.append_ne_nil_of_right_ne_nil (carry current) (List.cons_ne_nil a []))
        rw [eq]
        rw [shape] at later ⊢
        refine List.isChain_cons_cons.mpr ⟨⟨a, more, ?_⟩, later⟩
        rw [List.append_assoc, List.singleton_append]
      · rw [eq]
        exact packFrom_linked l (current ++ [a])

theorem Unbroken.snoc {n : Nat} {current : List α} {a : α} (unbroken : Unbroken breaks n current)
    (fits : current = [] ∨ breaks current a = false) : Unbroken breaks n (current ++ [a]) := by
  intro init b rest split long
  rcases List.eq_nil_or_concat rest with rfl | ⟨front, c, rfl⟩
  · obtain ⟨same, last⟩ := List.append_inj' split rfl
    rw [← same, ← (List.cons.inj last).1]
    rcases fits with none | fits
    · rw [none] at same
      rw [← same] at long
      exact absurd long (Nat.not_lt_zero n)
    · exact fits
  · rw [List.concat_eq_append, ← List.cons_append, ← List.append_assoc] at split
    exact unbroken init b front (List.append_inj' split rfl).1 long

/-- **What was added to a group beyond the overlap did not break it.** -/
theorem packFrom_fits {n : Nat} (short : ∀ g, (carry g).length ≤ n) : ∀ (l : List α)
    {current : List α}, Unbroken breaks n current →
      ∀ g ∈ packFrom breaks carry current l, Unbroken breaks n g
  | [], current, unbroken, g, mem => by
      rw [packFrom] at mem
      split at mem
      · cases mem
      · rw [List.mem_singleton.mp mem]
        exact unbroken
  | a :: l, current, unbroken, g, mem => by
      rcases packFrom_cons breaks carry current a l with
        ⟨-, -, eq⟩ | ⟨fits, eq⟩
      · rw [eq] at mem
        rcases List.mem_cons.mp mem with rfl | later
        · exact unbroken
        · refine packFrom_fits short l ?_ g later
          intro init b rest split long
          have lengths := congrArg List.length split
          have carried := short current
          simp only [List.length_append, List.length_cons, List.length_nil] at lengths
          omega
      · rw [eq] at mem
        exact packFrom_fits short l (unbroken.snoc fits) g mem

theorem unbroken_nil (n : Nat) : Unbroken breaks n [] := by
  intro init a rest split _
  exact absurd split.symm (List.append_ne_nil_of_right_ne_nil init (List.cons_ne_nil a rest))

/-- A group holds two neighbours, next to each other. -/
def Together (gs : List (List α)) (a b : α) : Prop := ∃ g ∈ gs, ∃ x y, g = x ++ a :: b :: y

theorem Together.cons {gs : List (List α)} {a b : α} (g : List α) (together : Together gs a b) :
    Together (g :: gs) a b := by
  obtain ⟨h, mem, shape⟩ := together
  exact ⟨h, List.mem_cons_of_mem _ mem, shape⟩

/-- What the current group holds is together in the first group. -/
theorem packFrom_current {l x y : List α} {a b : α} :
    Together (packFrom breaks carry (x ++ a :: b :: y) l) a b := by
  obtain ⟨more, rest, shape⟩ := packFrom_head breaks carry l
    (List.append_ne_nil_of_right_ne_nil x (List.cons_ne_nil a (b :: y)))
  refine ⟨_, shape ▸ List.mem_cons_self, x, y ++ more, ?_⟩
  simp

/-- Neighbours stay together where the second breaks no group the first can end. -/
theorem packFrom_together {a b : α} (suffixes : ∀ g, carry g <:+ g) :
    ∀ (pre post : List α) {current : List α},
      (∀ x, x <:+ current ++ pre → breaks (x ++ [a]) b = false) →
        Together (packFrom breaks carry current (pre ++ a :: b :: post)) a b
  | [], post, current, joins => by
      rw [List.append_nil] at joins
      have next : ∀ x, x <:+ current →
          Together (packFrom breaks carry (x ++ [a]) (b :: post)) a b := by
        intro x suffix
        rcases packFrom_cons breaks carry (x ++ [a]) b post with
          ⟨-, broken, -⟩ | ⟨-, eq⟩
        · exact absurd broken (by simp [joins x suffix])
        · rw [eq, List.append_assoc]
          exact packFrom_current
      rcases packFrom_cons breaks carry current a (b :: post) with
        ⟨-, -, eq⟩ | ⟨-, eq⟩
      · rw [List.nil_append, eq]
        exact (next _ (suffixes current)).cons _
      · rw [List.nil_append, eq]
        exact next _ List.suffix_rfl
  | p :: pre, post, current, joins => by
      rw [List.cons_append]
      rcases packFrom_cons breaks carry current p (pre ++ a :: b :: post)
        with ⟨-, -, eq⟩ | ⟨-, eq⟩
      · rw [eq]
        refine (packFrom_together suffixes pre post ?_).cons _
        intro x suffix
        apply joins x
        obtain ⟨front, whole⟩ := suffixes current
        refine suffix.trans ⟨front, ?_⟩
        rw [List.append_assoc, List.singleton_append, ← List.append_assoc, whole]
      · rw [eq]
        refine packFrom_together suffixes pre post ?_
        intro x suffix
        apply joins x
        rwa [List.append_assoc, List.singleton_append] at suffix

/-- With an overlap every two neighbours are together in some group. -/
theorem packFrom_adjacent {a b : α} (overlaps : ∀ x, ∃ y, carry (x ++ [a]) = y ++ [a]) :
    ∀ (pre post current : List α),
      Together (packFrom breaks carry current (pre ++ a :: b :: post)) a b
  | [], post, current => by
      have next : ∀ x, Together (packFrom breaks carry (x ++ [a]) (b :: post)) a b := by
        intro x
        rcases packFrom_cons breaks carry (x ++ [a]) b post with
          ⟨-, -, eq⟩ | ⟨-, eq⟩
        · obtain ⟨y, carried⟩ := overlaps x
          rw [eq, carried, List.append_assoc]
          exact packFrom_current.cons _
        · rw [eq, List.append_assoc]
          exact packFrom_current
      rcases packFrom_cons breaks carry current a (b :: post) with
        ⟨-, -, eq⟩ | ⟨-, eq⟩
      · rw [List.nil_append, eq]
        exact (next _).cons _
      · rw [List.nil_append, eq]
        exact next _
  | p :: pre, post, current => by
      rw [List.cons_append]
      rcases packFrom_cons breaks carry current p (pre ++ a :: b :: post)
        with ⟨-, -, eq⟩ | ⟨-, eq⟩
      · rw [eq]
        exact (packFrom_adjacent overlaps pre post _).cons _
      · rw [eq]
        exact packFrom_adjacent overlaps pre post _

/-- Where a suffix is carried over, every group is a contiguous part of the list. -/
theorem packFrom_part (suffixes : ∀ g, carry g <:+ g) : ∀ (l current : List α),
    ∀ g ∈ packFrom breaks carry current l, g <:+: current ++ l
  | [], current, g, mem => by
      rw [packFrom] at mem
      split at mem
      · cases mem
      · rw [List.mem_singleton.mp mem, List.append_nil]
  | a :: l, current, g, mem => by
      rcases packFrom_cons breaks carry current a l with
        ⟨-, -, eq⟩ | ⟨-, eq⟩
      · rw [eq] at mem
        rcases List.mem_cons.mp mem with rfl | later
        · exact (List.prefix_append g (a :: l)).isInfix
        · have inner := packFrom_part suffixes l _ g later
          rw [List.append_assoc, List.singleton_append] at inner
          obtain ⟨front, whole⟩ := suffixes current
          exact inner.trans ⟨front, [], by rw [List.append_nil, ← List.append_assoc, whole]⟩
      · rw [eq] at mem
        have inner := packFrom_part suffixes l _ g mem
        rwa [List.append_assoc, List.singleton_append] at inner

/-- The groups end where the list does. -/
theorem packFrom_last : ∀ (l current : List α),
    (packFrom breaks carry current l).getLast?.bind List.getLast? = (current ++ l).getLast?
  | [], current => by
      rw [packFrom]
      split
      · rename_i none
        rw [List.isEmpty_iff.mp none]
        rfl
      · rw [List.append_nil]
        rfl
  | a :: l, current => by
      rcases packFrom_cons breaks carry current a l with
        ⟨-, -, eq⟩ | ⟨-, eq⟩
      · have later := packFrom_last l (carry current ++ [a])
        obtain ⟨more, rest, shape⟩ := packFrom_head breaks carry l
          (List.append_ne_nil_of_right_ne_nil (carry current) (List.cons_ne_nil a []))
        rw [eq]
        rw [shape] at later ⊢
        rw [List.getLast?_cons_cons, later, List.append_assoc, List.singleton_append,
          List.getLast?_append, List.getLast?_append,
          List.getLast?_eq_getLast_of_ne_nil (List.cons_ne_nil a l)]
        rfl
      · rw [eq, packFrom_last l (current ++ [a]), List.append_assoc, List.singleton_append]

/-- Where one element is carried over, dropping the first of each later group undoes it. -/
theorem united_heads : ∀ {gs : List (List α)}, (∀ g ∈ gs, g ≠ [] ∧ (carry g).length = 1) →
    united carry gs = (gs.take 1 ++ (gs.drop 1).map List.tail).flatten
  | [], _ => rfl
  | [g], _ => by simp [united]
  | g :: h :: rest, each => by
      have later := united_heads fun x mem => each x (List.mem_cons_of_mem g mem)
      obtain ⟨-, one⟩ := each g List.mem_cons_self
      obtain ⟨held, -⟩ := each h (List.mem_cons_of_mem g List.mem_cons_self)
      obtain ⟨a, more, rfl⟩ := List.exists_cons_of_ne_nil held
      rw [united, later, one]
      simp

end OpsAssist.Theory
