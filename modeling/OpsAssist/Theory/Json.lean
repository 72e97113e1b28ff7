/-
# OpsAssist.Theory.Json -- JSON trees, their canonical form and maps over their numbers

`Json ν` is a JSON tree over numbers `ν`: one tree type serves a program's values
(integers and floats apart) and a database's (exact decimals).  An object is the
list of its members; as a finite map it is what `canon` makes of that list, the
members in the order of their keys' code points with the last of equal keys kept.
`Sorted` says a tree is canonical already, and `sorted_canon` with
`canon_of_sorted` makes the canonical trees the fixed points of `canon`.

`map` changes every number, `traverse` does so where the change may fail, and
`numbers` lists them.  `map_traverse_iff` is the round trip: translating the
numbers back gives the tree one started from exactly when each number survives.
-/
import Mathlib.Data.List.Basic
import Mathlib.Order.Basic
import Mathlib.Data.List.Lex
import Mathlib.Data.String.Basic

namespace OpsAssist.Theory

set_option autoImplicit false

/-- A JSON tree over the numbers `ν`. -/
inductive Json (ν : Type) where
  | null
  | bool (b : Bool)
  | num (n : ν)
  | str (s : String)
  | arr (items : List (Json ν))
  | obj (members : List (String × Json ν))

namespace Json

variable {ν μ : Type}

/-! ## Members in key order -/

section Members

variable {α β : Type}

/-- Put a member before those of larger key; a member of the same key already
there is kept. -/
def addMember (k : String) (v : α) : List (String × α) → List (String × α)
  | [] => [(k, v)]
  | (k', v') :: rest =>
      if k.toList < k'.toList then (k, v) :: (k', v') :: rest
      else if k = k' then (k', v') :: rest
      else (k', v') :: addMember k v rest

theorem key_of_mem_addMember {k : String} {v : α} {m : String × α} :
    ∀ {members : List (String × α)}, m ∈ addMember k v members → m.1 = k ∨ m ∈ members
  | [], mem => by
      simp only [addMember, List.mem_singleton] at mem
      exact .inl (by rw [mem])
  | (k', v') :: rest, mem => by
      simp only [addMember] at mem
      split at mem
      · rcases List.mem_cons.mp mem with rfl | old
        · exact .inl rfl
        · exact .inr old
      · split at mem
        · exact .inr mem
        · rcases List.mem_cons.mp mem with rfl | deeper
          · exact .inr (by simp)
          · rcases key_of_mem_addMember deeper with key | old
            · exact .inl key
            · exact .inr (List.mem_cons_of_mem _ old)

/-- A change of the values that sees the key commutes with adding a member. -/
theorem map_addMember (f : String → α → β) (k : String) (v : α) :
    ∀ members : List (String × α),
      (addMember k v members).map (fun m => (m.1, f m.1 m.2)) =
        addMember k (f k v) (members.map fun m => (m.1, f m.1 m.2))
  | [] => rfl
  | (k', v') :: rest => by
      simp only [addMember, List.map_cons]
      split
      · rfl
      · split
        · rfl
        · rw [List.map_cons, map_addMember f k v rest]

theorem addMember_of_lt {k : String} (v : α) :
    ∀ {members : List (String × α)}, (∀ m ∈ members, k.toList < m.1.toList) →
      addMember k v members = (k, v) :: members
  | [], _ => rfl
  | (k', v') :: rest, first => by
      rw [addMember, if_pos (first (k', v') (by simp))]

end Members

/-! ## The canonical form -/

mutual

/-- Every object's members in key order, the last of equal keys kept. -/
def canon : Json ν → Json ν
  | .arr items => .arr (canonItems items)
  | .obj members => .obj (canonMembers members)
  | .null => .null
  | .bool b => .bool b
  | .num n => .num n
  | .str s => .str s

def canonItems : List (Json ν) → List (Json ν)
  | [] => []
  | item :: items => canon item :: canonItems items

def canonMembers : List (String × Json ν) → List (String × Json ν)
  | [] => []
  | (k, v) :: rest => addMember k (canon v) (canonMembers rest)

end

mutual

/-- Every object's keys are strictly increasing. -/
def Sorted : Json ν → Prop
  | .arr items => SortedItems items
  | .obj members => SortedMembers members
  | .null | .bool _ | .num _ | .str _ => True

def SortedItems : List (Json ν) → Prop
  | [] => True
  | item :: items => Sorted item ∧ SortedItems items

def SortedMembers : List (String × Json ν) → Prop
  | [] => True
  | (k, v) :: rest => Sorted v ∧ (∀ m ∈ rest, k.toList < m.1.toList) ∧ SortedMembers rest

end

theorem sortedMembers_addMember {k : String} {v : Json ν} (sorted : Sorted v) :
    ∀ {members : List (String × Json ν)}, SortedMembers members →
      SortedMembers (addMember k v members)
  | [], _ => ⟨sorted, by simp, trivial⟩
  | (k', v') :: rest, old => by
      obtain ⟨value, least, others⟩ := old
      rw [addMember]
      split
      · rename_i less
        refine ⟨sorted, ?_, value, least, others⟩
        intro m mem
        rcases List.mem_cons.mp mem with rfl | deeper
        · exact less
        · exact less.trans (least m deeper)
      · split
        · exact ⟨value, least, others⟩
        · rename_i notLess notSame
          have above : k'.toList < k.toList :=
            lt_of_le_of_ne (not_lt.mp notLess) fun same => notSame (String.toList_injective same.symm)
          refine ⟨value, ?_, sortedMembers_addMember sorted others⟩
          intro m mem
          rcases key_of_mem_addMember mem with key | old
          · rw [key]; exact above
          · exact least m old

mutual

theorem sorted_canon : ∀ j : Json ν, Sorted (canon j)
  | .null | .bool _ | .num _ | .str _ => by simp only [canon, Sorted]
  | .arr items => by simpa only [canon, Sorted] using sortedItems_canon items
  | .obj members => by simpa only [canon, Sorted] using sortedMembers_canon members

theorem sortedItems_canon : ∀ items : List (Json ν), SortedItems (canonItems items)
  | [] => trivial
  | item :: items => ⟨sorted_canon item, sortedItems_canon items⟩

theorem sortedMembers_canon :
    ∀ members : List (String × Json ν), SortedMembers (canonMembers members)
  | [] => trivial
  | (_, v) :: rest => sortedMembers_addMember (sorted_canon v) (sortedMembers_canon rest)

end

mutual

theorem canon_of_sorted : ∀ {j : Json ν}, Sorted j → canon j = j
  | .null, _ | .bool _, _ | .num _, _ | .str _, _ => by simp only [canon]
  | .arr items, sorted => by
      rw [canon, canonItems_of_sorted (by simpa only [Sorted] using sorted)]
  | .obj members, sorted => by
      rw [canon, canonMembers_of_sorted (by simpa only [Sorted] using sorted)]

theorem canonItems_of_sorted : ∀ {items : List (Json ν)}, SortedItems items →
    canonItems items = items
  | [], _ => rfl
  | item :: items, ⟨first, others⟩ => by
      rw [canonItems, canon_of_sorted first, canonItems_of_sorted others]

theorem canonMembers_of_sorted : ∀ {members : List (String × Json ν)}, SortedMembers members →
    canonMembers members = members
  | [], _ => rfl
  | (k, v) :: rest, ⟨value, least, others⟩ => by
      rw [canonMembers, canon_of_sorted value, canonMembers_of_sorted others,
        addMember_of_lt v least]

end

@[simp] theorem canon_canon (j : Json ν) : canon (canon j) = canon j :=
  canon_of_sorted (sorted_canon j)

/-! ## Maps over the numbers -/

mutual

/-- The tree with every number changed by `f`. -/
def map (f : ν → μ) : Json ν → Json μ
  | .null => .null
  | .bool b => .bool b
  | .num n => .num (f n)
  | .str s => .str s
  | .arr items => .arr (mapItems f items)
  | .obj members => .obj (mapMembers f members)

def mapItems (f : ν → μ) : List (Json ν) → List (Json μ)
  | [] => []
  | item :: items => map f item :: mapItems f items

def mapMembers (f : ν → μ) : List (String × Json ν) → List (String × Json μ)
  | [] => []
  | (k, v) :: rest => (k, map f v) :: mapMembers f rest

end

mutual

/-- The numbers of the tree, from left to right. -/
def numbers : Json ν → List ν
  | .num n => [n]
  | .arr items => numbersItems items
  | .obj members => numbersMembers members
  | .null | .bool _ | .str _ => []

def numbersItems : List (Json ν) → List ν
  | [] => []
  | item :: items => numbers item ++ numbersItems items

def numbersMembers : List (String × Json ν) → List ν
  | [] => []
  | (_, v) :: rest => numbers v ++ numbersMembers rest

end

mutual

/-- The tree with every number changed by `f`, when `f` succeeds on all of them. -/
def traverse (f : ν → Option μ) : Json ν → Option (Json μ)
  | .null => some .null
  | .bool b => some (.bool b)
  | .num n => (f n).map .num
  | .str s => some (.str s)
  | .arr items => (traverseItems f items).map .arr
  | .obj members => (traverseMembers f members).map .obj

def traverseItems (f : ν → Option μ) : List (Json ν) → Option (List (Json μ))
  | [] => some []
  | item :: items =>
      (traverse f item).bind fun item' => (traverseItems f items).map (item' :: ·)

def traverseMembers (f : ν → Option μ) :
    List (String × Json ν) → Option (List (String × Json μ))
  | [] => some []
  | (k, v) :: rest =>
      (traverse f v).bind fun v' => (traverseMembers f rest).map ((k, v') :: ·)

end

mutual

theorem map_traverse_iff {f : ν → Option μ} {g : μ → ν} : ∀ {j : Json ν} {t : Json μ},
    traverse f j = some t → (map g t = j ↔ ∀ n ∈ numbers j, (f n).map g = some n)
  | .null, _, done => by cases done; simp [map, numbers]
  | .bool _, _, done => by cases done; simp [map, numbers]
  | .str _, _, done => by cases done; simp [map, numbers]
  | .num n, t, done => by
      rw [traverse, Option.map_eq_some_iff] at done
      obtain ⟨m, there, rfl⟩ := done
      simp [map, numbers, there]
  | .arr items, t, done => by
      rw [traverse, Option.map_eq_some_iff] at done
      obtain ⟨items', there, rfl⟩ := done
      rw [map, numbers, Json.arr.injEq]
      exact mapItems_traverse_iff there
  | .obj members, t, done => by
      rw [traverse, Option.map_eq_some_iff] at done
      obtain ⟨members', there, rfl⟩ := done
      rw [map, numbers, Json.obj.injEq]
      exact mapMembers_traverse_iff there

theorem mapItems_traverse_iff {f : ν → Option μ} {g : μ → ν} :
    ∀ {items : List (Json ν)} {items' : List (Json μ)}, traverseItems f items = some items' →
      (mapItems g items' = items ↔ ∀ n ∈ numbersItems items, (f n).map g = some n)
  | [], _, done => by cases done; simp [mapItems, numbersItems]
  | item :: items, _, done => by
      rw [traverseItems, Option.bind_eq_some_iff] at done
      obtain ⟨item', first, done⟩ := done
      obtain ⟨items', others, rfl⟩ := Option.map_eq_some_iff.mp done
      rw [mapItems, numbersItems, List.cons.injEq, map_traverse_iff first,
        mapItems_traverse_iff others, List.forall_mem_append]

theorem mapMembers_traverse_iff {f : ν → Option μ} {g : μ → ν} :
    ∀ {members : List (String × Json ν)} {members' : List (String × Json μ)},
      traverseMembers f members = some members' →
      (mapMembers g members' = members ↔ ∀ n ∈ numbersMembers members, (f n).map g = some n)
  | [], _, done => by cases done; simp [mapMembers, numbersMembers]
  | (k, v) :: rest, _, done => by
      rw [traverseMembers, Option.bind_eq_some_iff] at done
      obtain ⟨v', first, done⟩ := done
      obtain ⟨rest', others, rfl⟩ := Option.map_eq_some_iff.mp done
      rw [mapMembers, numbersMembers, List.cons.injEq, Prod.mk.injEq, map_traverse_iff first,
        mapMembers_traverse_iff others, List.forall_mem_append]
      simp

end

theorem keys_traverseMembers {f : ν → Option μ} {k : String} :
    ∀ {members : List (String × Json ν)} {members' : List (String × Json μ)},
      traverseMembers f members = some members' → (∀ m ∈ members, k.toList < m.1.toList) →
      ∀ m ∈ members', k.toList < m.1.toList
  | [], _, done, _ => by cases done; simp
  | (k', v) :: rest, _, done, first => by
      rw [traverseMembers, Option.bind_eq_some_iff] at done
      obtain ⟨v', -, done⟩ := done
      obtain ⟨rest', others, rfl⟩ := Option.map_eq_some_iff.mp done
      rw [List.forall_mem_cons] at first ⊢
      exact ⟨first.1, keys_traverseMembers others first.2⟩

mutual

theorem sorted_traverse {f : ν → Option μ} : ∀ {j : Json ν} {t : Json μ},
    traverse f j = some t → Sorted j → Sorted t
  | .null, _, done, _ | .bool _, _, done, _ | .str _, _, done, _ => by
      cases done; simp only [Sorted]
  | .num n, t, done, _ => by
      rw [traverse, Option.map_eq_some_iff] at done
      obtain ⟨m, -, rfl⟩ := done
      simp only [Sorted]
  | .arr items, t, done, sorted => by
      rw [traverse, Option.map_eq_some_iff] at done
      obtain ⟨items', there, rfl⟩ := done
      rw [Sorted] at sorted ⊢
      exact sortedItems_traverse there sorted
  | .obj members, t, done, sorted => by
      rw [traverse, Option.map_eq_some_iff] at done
      obtain ⟨members', there, rfl⟩ := done
      rw [Sorted] at sorted ⊢
      exact sortedMembers_traverse there sorted

theorem sortedItems_traverse {f : ν → Option μ} :
    ∀ {items : List (Json ν)} {items' : List (Json μ)}, traverseItems f items = some items' →
      SortedItems items → SortedItems items'
  | [], _, done, _ => by cases done; trivial
  | item :: items, _, done, ⟨first, others⟩ => by
      rw [traverseItems, Option.bind_eq_some_iff] at done
      obtain ⟨item', there, done⟩ := done
      obtain ⟨items', rest, rfl⟩ := Option.map_eq_some_iff.mp done
      exact ⟨sorted_traverse there first, sortedItems_traverse rest others⟩

theorem sortedMembers_traverse {f : ν → Option μ} :
    ∀ {members : List (String × Json ν)} {members' : List (String × Json μ)},
      traverseMembers f members = some members' → SortedMembers members → SortedMembers members'
  | [], _, done, _ => by cases done; trivial
  | (k, v) :: rest, _, done, ⟨value, least, others⟩ => by
      rw [traverseMembers, Option.bind_eq_some_iff] at done
      obtain ⟨v', there, done⟩ := done
      obtain ⟨rest', tail, rfl⟩ := Option.map_eq_some_iff.mp done
      exact ⟨sorted_traverse there value, keys_traverseMembers tail least,
        sortedMembers_traverse tail others⟩

end

theorem keys_mapMembers {f : ν → μ} {k : String} : ∀ {members : List (String × Json ν)},
    (∀ m ∈ members, k.toList < m.1.toList) → ∀ m ∈ mapMembers f members, k.toList < m.1.toList
  | [], _ => by simp [mapMembers]
  | (_, _) :: rest, first => by
      rw [List.forall_mem_cons] at first
      rw [mapMembers, List.forall_mem_cons]
      exact ⟨first.1, keys_mapMembers first.2⟩

mutual

theorem sorted_map (f : ν → μ) : ∀ {j : Json ν}, Sorted j → Sorted (map f j)
  | .null, _ | .bool _, _ | .num _, _ | .str _, _ => by simp only [map, Sorted]
  | .arr items, sorted => by
      rw [map, Sorted]; exact sortedItems_map f (by simpa only [Sorted] using sorted)
  | .obj members, sorted => by
      rw [map, Sorted]; exact sortedMembers_map f (by simpa only [Sorted] using sorted)

theorem sortedItems_map (f : ν → μ) : ∀ {items : List (Json ν)}, SortedItems items →
    SortedItems (mapItems f items)
  | [], _ => trivial
  | _ :: _, ⟨first, others⟩ => ⟨sorted_map f first, sortedItems_map f others⟩

theorem sortedMembers_map (f : ν → μ) : ∀ {members : List (String × Json ν)},
    SortedMembers members → SortedMembers (mapMembers f members)
  | [], _ => trivial
  | (_, _) :: _, ⟨value, least, others⟩ =>
      ⟨sorted_map f value, keys_mapMembers least, sortedMembers_map f others⟩

end

/-! ## Strings -/

mutual

/-- Whether every string and every key satisfies `p`. -/
def allStrings (p : String → Bool) : Json ν → Bool
  | .str s => p s
  | .arr items => allStringsItems p items
  | .obj members => allStringsMembers p members
  | .null | .bool _ | .num _ => true

def allStringsItems (p : String → Bool) : List (Json ν) → Bool
  | [] => true
  | item :: items => allStrings p item && allStringsItems p items

def allStringsMembers (p : String → Bool) : List (String × Json ν) → Bool
  | [] => true
  | (k, v) :: rest => p k && allStrings p v && allStringsMembers p rest

end

end Json
end OpsAssist.Theory
