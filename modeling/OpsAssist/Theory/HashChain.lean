/-
# OpsAssist.Theory.HashChain -- lists of records linked by hashes

A record carries the hash of its predecessor and its own; `digest` is what its own
hash should be.  `Linked` says every record names its predecessor's hash, `Sound`
that a record's hash is the digest of its content, and `firstFault` walks the list
as a verifier does and stops at the first record that fails either.

A linked list whose hashes are pairwise different, and different from the hash it
starts with, has no other linked list of its records than its own beginnings
(`linked_prefix`): neither gaps nor a different order go unnoticed, and a missing
end always does.
-/
import Mathlib.Data.List.Nodup
import Mathlib.Data.List.Infix

namespace OpsAssist.Theory

set_option autoImplicit false

/-- How records of type `ρ` are chained by hashes of type `H`. -/
structure HashChain (ρ H : Type) where
  prev : ρ → H
  hash : ρ → H
  digest : H → ρ → H

namespace HashChain

variable {ρ H : Type} (C : HashChain ρ H)

/-- The first record names `start`, every other one its predecessor's hash. -/
def Linked : H → List ρ → Prop
  | _, [] => True
  | start, r :: rest => C.prev r = start ∧ Linked (C.hash r) rest

/-- The hash the next record has to name. -/
def endHash : H → List ρ → H
  | start, [] => start
  | _, r :: rest => endHash (C.hash r) rest

/-- The record's hash is the digest of its content. -/
def Sound (r : ρ) : Prop := C.hash r = C.digest (C.prev r) r

/-- The chain of records found inside larger ones. -/
def comap {σ : Type} (f : σ → ρ) : HashChain σ H where
  prev s := C.prev (f s)
  hash s := C.hash (f s)
  digest start s := C.digest start (f s)

/-! ## Appending -/

variable {C}

theorem linked_append : ∀ {start : H} {front back : List ρ},
    C.Linked start (front ++ back) ↔ C.Linked start front ∧ C.Linked (C.endHash start front) back
  | _, [], _ => by simp [Linked, endHash]
  | _, r :: front, _ => by
      simp only [List.cons_append, Linked, endHash, linked_append, and_assoc]

theorem linked_comap {σ : Type} {f : σ → ρ} : ∀ {start : H} {rows : List σ},
    (C.comap f).Linked start rows ↔ C.Linked start (rows.map f)
  | _, [] => Iff.rfl
  | _, _ :: _ => and_congr_right fun _ => linked_comap

theorem endHash_append : ∀ (start : H) (front back : List ρ),
    C.endHash start (front ++ back) = C.endHash (C.endHash start front) back
  | _, [], _ => rfl
  | _, _ :: front, back => endHash_append _ front back

theorem endHash_concat (start : H) (front : List ρ) (r : ρ) :
    C.endHash start (front ++ [r]) = C.hash r := by
  rw [endHash_append, endHash, endHash]

theorem endHash_getLast? : ∀ (start : H) (rows : List ρ),
    C.endHash start rows = ((rows.getLast?).map C.hash).getD start
  | _, [] => rfl
  | _, [_] => rfl
  | _, _ :: s :: rest => by
      rw [endHash, endHash_getLast? _ (s :: rest), List.getLast?_cons_cons]
      simp [List.getLast?_cons]

/-! ## Which lists of a chain's records are linked -/

/-- The hashes named are those of the chain before its end. -/
theorem cons_hashes : ∀ {start : H} {rows : List ρ}, C.Linked start rows →
    start :: rows.map C.hash = rows.map C.prev ++ [C.endHash start rows]
  | _, [], _ => rfl
  | _, r :: rest, ⟨named, linked⟩ => by
      rw [List.map_cons, List.map_cons, List.cons_append, named, cons_hashes linked, endHash]

/-- Along `rest`, records of `all` that are linked are a beginning of `rest`, when
a hash is named by one record of `all` only and the last one by none. -/
theorem linked_prefix_of_unique {all : List ρ}
    (unique : ∀ r ∈ all, ∀ s ∈ all, C.prev r = C.prev s → r = s) :
    ∀ {start : H} {rest kept : List ρ}, C.Linked start rest → C.Linked start kept →
      (∀ r ∈ rest, r ∈ all) → (∀ k ∈ kept, k ∈ all) →
      C.endHash start rest ∉ all.map C.prev → kept <+: rest
  | _, _, [], _, _, _, _, _ => List.nil_prefix
  | _, [], k :: _, _, ⟨named, _⟩, _, inside, fresh =>
      absurd (List.mem_map.mpr ⟨k, inside k (by simp), named⟩) fresh
  | _, r :: rest, k :: kept, ⟨namedR, linkedR⟩, ⟨namedK, linkedK⟩, insideR, insideK, fresh => by
      obtain rfl := unique r (insideR r (by simp)) k (insideK k (by simp))
        (namedR.trans namedK.symm)
      rw [List.prefix_cons_inj]
      exact linked_prefix_of_unique unique linkedR linkedK
        (fun x mem => insideR x (List.mem_cons_of_mem _ mem))
        (fun x mem => insideK x (List.mem_cons_of_mem _ mem)) fresh

/-- **Records of a chain that are linked are a beginning of the chain.** -/
theorem linked_prefix {start : H} {rows kept : List ρ}
    (linked : C.Linked start rows) (distinct : (start :: rows.map C.hash).Nodup)
    (linkedKept : C.Linked start kept) (inside : ∀ k ∈ kept, k ∈ rows) : kept <+: rows := by
  rw [cons_hashes linked] at distinct
  have names := List.nodup_append.mp distinct
  refine linked_prefix_of_unique (List.inj_on_of_nodup_map names.1) linked linkedKept
    (fun _ mem => mem) inside ?_
  intro mem
  exact names.2.2 _ mem _ (by simp) rfl

theorem linked_of_prefix {start : H} {rows kept : List ρ} (linked : C.Linked start rows)
    (beginning : kept <+: rows) : C.Linked start kept := by
  obtain ⟨rest, rfl⟩ := beginning
  exact (linked_append.mp linked).1

/-! ## Walking a chain -/

/-- What is wrong with a record. -/
inductive Fault where
  | link
  | content
deriving DecidableEq

variable (C) [DecidableEq H]

/-- The first record that does not fit, if any. -/
def firstFault : H → List ρ → Option (ρ × Fault)
  | _, [] => none
  | start, r :: rest =>
      if C.prev r ≠ start then some (r, .link)
      else if C.hash r ≠ C.digest start r then some (r, .content)
      else firstFault (C.hash r) rest

variable {C}

theorem firstFault_eq_none_iff : ∀ {start : H} {rows : List ρ},
    C.firstFault start rows = none ↔ C.Linked start rows ∧ ∀ r ∈ rows, C.Sound r
  | _, [] => by simp [firstFault, Linked]
  | start, r :: rest => by
      rw [firstFault, Linked, List.forall_mem_cons]
      by_cases named : C.prev r = start
      · subst named
        by_cases content : C.hash r = C.digest (C.prev r) r
        · simp only [ne_eq, not_true, if_false, content, true_and, Sound]
          rw [← content]
          exact firstFault_eq_none_iff
        · simp [content, Sound]
      · simp [named]

/-- On a linked list the walk stops at the first unsound record. -/
theorem firstFault_of_linked : ∀ {start : H} {front back : List ρ} {r : ρ},
    C.Linked start (front ++ r :: back) → (∀ x ∈ front, C.Sound x) → ¬C.Sound r →
    C.firstFault start (front ++ r :: back) = some (r, .content)
  | start, [], back, r, ⟨named, _⟩, _, unsound => by
      subst named
      have differs : C.hash r ≠ C.digest (C.prev r) r := unsound
      rw [List.nil_append, firstFault, if_neg (by simp), if_pos differs]
  | start, x :: front, back, r, ⟨named, linked⟩, sound, unsound => by
      subst named
      rw [List.cons_append, firstFault, if_neg (by simp),
        if_neg (by simpa [Sound] using sound x (by simp))]
      exact firstFault_of_linked linked (fun y mem => sound y (List.mem_cons_of_mem _ mem)) unsound

/-- On a linked list the walk only ever stops at an unsound record after sound ones. -/
theorem firstFault_eq_some : ∀ {start : H} {rows : List ρ} {r : ρ} {fault : Fault},
    C.Linked start rows → C.firstFault start rows = some (r, fault) →
    ∃ front back, rows = front ++ r :: back ∧ (∀ x ∈ front, C.Sound x) ∧ ¬C.Sound r
  | _, [], _, _, _, found => by simp [firstFault] at found
  | start, x :: rest, r, fault, ⟨named, linked⟩, found => by
      subst named
      rw [firstFault, if_neg (by simp)] at found
      split at found
      · rename_i unsound
        cases found
        exact ⟨[], rest, rfl, by simp, unsound⟩
      · rename_i sound
        obtain ⟨front, back, shape, before, unsound⟩ := firstFault_eq_some linked found
        refine ⟨x :: front, back, by rw [shape, List.cons_append], ?_, unsound⟩
        rw [List.forall_mem_cons]
        exact ⟨not_not.mp sound, before⟩

end HashChain
end OpsAssist.Theory
