/-
# OpsAssist.Theory.Refill -- what a bucket holds that is refilled continuously

`refill rate size tokens elapsed` is what a bucket of a size holds some time after it held so
many tokens.  Refilling is continuous: `refill_refill` says that it does not matter when one
looks, `refill_add_le` that no time brings more than its share, and `refill_full` when the bucket
is full again, which is when what it held before can be forgotten.
-/
import Mathlib.Algebra.Order.Field.Basic
import Mathlib.Tactic.Linarith

namespace OpsAssist.Theory

set_option autoImplicit false

section

variable {α : Type} [Field α] [LinearOrder α]

/-- What is in the bucket after a time, at most its size. -/
def refill (rate size tokens elapsed : α) : α := min size (tokens + elapsed * rate)

variable {rate size tokens elapsed more : α}

theorem refill_le : refill rate size tokens elapsed ≤ size := min_le_left _ _

/-- Once it could have gained all that fits, the bucket is full. -/
theorem refill_full (enough : size ≤ tokens + elapsed * rate) :
    refill rate size tokens elapsed = size := min_eq_left enough

variable [IsStrictOrderedRing α]

theorem refill_nonneg (pos : 0 ≤ rate) (room : 0 ≤ size) (some : 0 ≤ tokens) (later : 0 ≤ elapsed) :
    0 ≤ refill rate size tokens elapsed := by
  have gained : 0 ≤ elapsed * rate := mul_nonneg later pos
  apply le_min room
  linarith

/-- **Looking in between changes nothing.** -/
theorem refill_refill (pos : 0 ≤ rate) (later : 0 ≤ more) :
    refill rate size (refill rate size tokens elapsed) more =
      refill rate size tokens (elapsed + more) := by
  have gained : 0 ≤ more * rate := mul_nonneg later pos
  unfold refill
  rcases le_total size (tokens + elapsed * rate) with full | short
  · have still : size ≤ tokens + (elapsed + more) * rate := by
      rw [add_mul]
      linarith
    rw [min_eq_left full, min_eq_left still]
    apply min_eq_left
    linarith
  · rw [min_eq_right short, add_mul, add_assoc]

/-- **A time brings no more than its share.** -/
theorem refill_add_le (pos : 0 ≤ rate) (later : 0 ≤ more) :
    refill rate size tokens (elapsed + more) ≤
      refill rate size tokens elapsed + more * rate := by
  have gained : 0 ≤ more * rate := mul_nonneg later pos
  unfold refill
  rw [← min_add_add_right]
  apply min_le_min
  · linarith
  · rw [add_mul]
    linarith

/-- A cost that fits is there once the time has brought what was missing. -/
theorem le_refill {cost : α} (fits : cost ≤ size) (brought : cost - tokens ≤ elapsed * rate) :
    cost ≤ refill rate size tokens elapsed := by
  apply le_min fits
  linarith

end

end OpsAssist.Theory
