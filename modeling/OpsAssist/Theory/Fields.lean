/-
# OpsAssist.Theory.Fields -- fields joined by a mark they may hold

Fields written one after another with a mark between can be read back when no field
holds the mark.  Here only the middle one of three is known not to: `fields_eq_iff` says
which other fields give the same text.  One reading's first field then holds the other's
first two (`Straddles`).
-/
import Mathlib.Data.List.Basic

namespace OpsAssist.Theory

set_option autoImplicit false

variable {α : Type} {mark : α}

/-- Two ways to cut one text at a mark. -/
theorem mark_cases {a b x y : List α} (same : a ++ mark :: x = b ++ mark :: y) :
    (a = b ∧ x = y) ∨ (∃ z, b = a ++ mark :: z ∧ x = z ++ mark :: y) ∨
      ∃ z, a = b ++ mark :: z ∧ y = z ++ mark :: x := by
  rcases List.append_eq_append_iff.mp same with ⟨z, longer, rest⟩ | ⟨z, longer, rest⟩
  · cases z with
    | nil => simp_all
    | cons c z =>
        rw [List.cons_append, List.cons.injEq] at rest
        obtain ⟨rfl, tail⟩ := rest
        exact .inr (.inl ⟨z, longer, tail⟩)
  · cases z with
    | nil => simp_all
    | cons c z =>
        rw [List.cons_append, List.cons.injEq] at rest
        obtain ⟨rfl, tail⟩ := rest
        exact .inr (.inr ⟨z, longer, tail⟩)

/-- The first field of the second reading goes on behind the second field of the first. -/
def Straddles (mark : α) (a b x a' b' x' : List α) : Prop :=
  ∃ rest, a' = a ++ mark :: (b ++ rest) ∧ mark :: x = rest ++ mark :: (b' ++ mark :: x')

theorem Straddles.same {a b x a' b' x' : List α} (past : Straddles mark a b x a' b' x') :
    a ++ mark :: (b ++ mark :: x) = a' ++ mark :: (b' ++ mark :: x') := by
  obtain ⟨rest, longer, tail⟩ := past
  rw [tail, longer]
  simp

theorem straddles_of_longer {a b x z b' x' : List α} (free : mark ∉ b)
    (same : b ++ mark :: x = z ++ mark :: (b' ++ mark :: x')) :
    Straddles mark a b x (a ++ mark :: z) b' x' := by
  rcases mark_cases same with ⟨rfl, rfl⟩ | ⟨w, rfl, rfl⟩ | ⟨w, rfl, -⟩
  · exact ⟨[], by simp, rfl⟩
  · exact ⟨mark :: w, rfl, rfl⟩
  · exact absurd (by simp) free

/-- **Which fields give one text**, when the middle one has no mark. -/
theorem fields_eq_iff {a b x a' b' x' : List α} (free : mark ∉ b) (free' : mark ∉ b') :
    a ++ mark :: (b ++ mark :: x) = a' ++ mark :: (b' ++ mark :: x') ↔
      (a = a' ∧ b = b' ∧ x = x') ∨ Straddles mark a b x a' b' x' ∨
        Straddles mark a' b' x' a b x := by
  constructor
  · intro same
    rcases mark_cases same with ⟨rfl, rest⟩ | ⟨z, rfl, rest⟩ | ⟨z, rfl, rest⟩
    · rcases mark_cases rest with ⟨rfl, rfl⟩ | ⟨w, rfl, -⟩ | ⟨w, rfl, -⟩
      · exact .inl ⟨rfl, rfl, rfl⟩
      · exact absurd (by simp) free'
      · exact absurd (by simp) free
    · exact .inr (.inl (straddles_of_longer free rest))
    · exact .inr (.inr (straddles_of_longer free' rest))
  · rintro (⟨rfl, rfl, rfl⟩ | past | past)
    · rfl
    · exact past.same
    · exact past.same.symm

end OpsAssist.Theory
