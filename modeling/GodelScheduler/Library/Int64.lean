import Mathlib.Data.Int.Basic
import Mathlib.Tactic.Ring

/-!
# 64-bit integers

Arithmetic on signed 64-bit integers, written over the integers: a result out of range
wraps around. Addition commutes with wrapping around, so a sum is described by the exact
sum and one wrap, and in range nothing wraps.
-/

namespace GodelScheduler.Library

/-- What a 64-bit variable holds of an integer. -/
def int64 (x : ℤ) : ℤ := x.bmod (2 ^ 64)

def FitsInt64 (x : ℤ) : Prop := -2 ^ 63 ≤ x ∧ x < 2 ^ 63

instance (x : ℤ) : Decidable (FitsInt64 x) := inferInstanceAs (Decidable (_ ∧ _))

variable {x y z : ℤ}

theorem FitsInt64.int64_eq (h : FitsInt64 x) : int64 x = x := by
  obtain ⟨hlower, hupper⟩ := h
  apply Int.bmod_eq_of_le
  · omega
  · omega

@[simp] theorem int64_int64_add : int64 (int64 x + y) = int64 (x + y) := Int.bmod_add_bmod

@[simp] theorem int64_add_int64 : int64 (x + int64 y) = int64 (x + y) := Int.add_bmod_bmod

/-- The first summand of two that wrapped around. -/
@[simp] theorem int64_add_int64_add : int64 (x + int64 y + z) = int64 (x + y + z) := by
  rw [add_right_comm, int64_add_int64, add_right_comm]

end GodelScheduler.Library
