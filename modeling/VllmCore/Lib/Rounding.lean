import Mathlib.Algebra.Order.Floor.Div

namespace VllmCore.Lib

/-!
# Rounding to blocks

Tokens are grouped into blocks of one size.  The number of blocks that hold some
tokens is a quotient rounded up; lengths are rounded down to an alignment.
-/

/-- The number of blocks of a size that hold an amount. -/
def cdiv (amount size : Nat) : Nat :=
  amount ⌈/⌉ size

section Rules

variable {amount other size position : Nat}

variable (pos : 0 < size)
include pos

theorem cdiv_le_iff : cdiv amount size ≤ position ↔ amount ≤ position * size := by
  rw [cdiv, ceilDiv_le_iff_le_mul pos, mul_comm]

/-- A block is needed exactly when something lies behind its start. -/
theorem lt_cdiv_iff : position < cdiv amount size ↔ position * size < amount := by
  rw [← not_le, cdiv_le_iff pos, not_le]

theorem cdiv_mul : cdiv (amount * size) size = amount := by
  apply le_antisymm
  · exact (cdiv_le_iff pos).mpr le_rfl
  · by_contra short
    have inside := (lt_cdiv_iff pos).mpr (Nat.mul_lt_mul_of_pos_right (Nat.not_le.mp short) pos)
    exact lt_irrefl _ inside

/-- The block of a position is one of the blocks that hold a longer amount. -/
theorem div_lt_cdiv (inside : position < amount) : position / size < cdiv amount size := by
  rw [lt_cdiv_iff pos]
  exact lt_of_le_of_lt (Nat.div_mul_le_self position size) inside

omit pos in
theorem cdiv_mono (below : amount ≤ other) (size : Nat) : cdiv amount size ≤ cdiv other size := by
  rcases eq_zero_or_pos size with rfl | pos
  · simp [cdiv]
  · rw [cdiv_le_iff pos]
    exact le_trans below ((cdiv_le_iff pos).mp le_rfl)

end Rules

end VllmCore.Lib
