import Mathlib.Data.Nat.Count
import Mathlib.Tactic.Ring

namespace VllmCore.Lib.Turns

/-!
# Positions dealt out in turns

Ranks take turns of a fixed length; the positions of a rank are numbered without gaps.
-/

def owner (turn ranks pos : Nat) : Nat :=
  pos / turn % ranks

/-- How many positions below `pos` a rank has. -/
def owned (turn ranks rank pos : Nat) : Nat :=
  Nat.count (fun other => owner turn ranks other = rank) pos

/-- The number of a position among those of its rank. -/
def localOffset (turn ranks pos : Nat) : Nat :=
  pos / (turn * ranks) * turn + pos % turn

variable {turn ranks rank pos : Nat} (turn_pos : 0 < turn)

include turn_pos

/-- What one more position of a round adds for a rank. -/
theorem min_succ {rank offset : Nat} : min (offset + 1 - rank * turn) turn =
    min (offset - rank * turn) turn + if offset / turn = rank then 1 else 0 := by
  have lower := Nat.div_mul_le_self offset turn
  have upper := Nat.lt_div_mul_add turn_pos (a := offset)
  rcases lt_trichotomy (offset / turn) rank with less | same | more
  · have := Nat.mul_le_mul_right turn less
    rw [if_neg less.ne]
    grind
  · rw [if_pos same]
    rw [same] at lower upper
    omega
  · have := Nat.mul_le_mul_right turn more
    rw [if_neg more.ne']
    grind

theorem owned_eq (isRank : rank < ranks) : owned turn ranks rank pos =
    pos / (turn * ranks) * turn + min (pos % (turn * ranks) - rank * turn) turn := by
  induction pos with
  | zero => simp [owned]
  | succ pos ih =>
    have period := mul_pos turn_pos (Nat.zero_lt_of_lt isRank)
    have whole := Nat.div_add_mod pos (turn * ranks)
    have fits := Nat.mul_le_mul_left turn isRank
    rw [owned] at ih ⊢
    rw [Nat.count_succ, ih, owner, ← Nat.mod_mul_right_div_self, add_assoc, ← min_succ turn_pos]
    have inside : pos % (turn * ranks) + 1 ≤ turn * ranks := Nat.mod_lt pos period
    rcases inside.lt_or_eq with less | last
    · nth_rewrite 3 4 [← whole]
      rw [add_assoc, Nat.mul_add_div period, Nat.mul_add_mod, Nat.div_eq_of_lt less,
        Nat.mod_eq_of_lt less, add_zero (pos / _)]
    · have next : pos + 1 = turn * ranks * (pos / (turn * ranks) + 1) := by
        rw [Nat.mul_succ]
        omega
      rw [next, Nat.mul_div_cancel_left _ period, Nat.mul_mod_right, last]
      grind

theorem owned_of_owner (ranks_pos : 0 < ranks) (owns : owner turn ranks pos = rank) :
    owned turn ranks rank pos = localOffset turn ranks pos := by
  have less := Nat.mod_lt pos turn_pos
  rw [owned_eq turn_pos (owns ▸ Nat.mod_lt _ ranks_pos), localOffset, Nat.mod_mul, ← owner, owns,
    mul_comm _ rank]
  omega

/-- Blocks of whole turns may be numbered one at a time. -/
theorem localOffset_block {size : Nat} (size_pos : 0 < size) (fits : turn ∣ size) :
    owner turn ranks (pos % (size * ranks)) = owner turn ranks pos ∧ localOffset turn ranks pos =
        size * (pos / (size * ranks)) + localOffset turn ranks (pos % (size * ranks)) ∧
      localOffset turn ranks (pos % (size * ranks)) < size := by
  obtain ⟨count, rfl⟩ := fits
  have less := Nat.mod_lt (pos / (turn * ranks)) (Nat.pos_of_mul_pos_left size_pos)
  have inner := Nat.mod_lt pos turn_pos
  have whole := Nat.div_add_mod (pos / (turn * ranks)) count
  have inside : localOffset turn ranks (pos % (turn * ranks * count)) =
      pos / (turn * ranks) % count * turn + pos % turn := by
    rw [localOffset, Nat.mod_mul_right_div_self, Nat.mul_assoc, Nat.mod_mul_right_mod]
  rw [Nat.mul_right_comm, inside]
  refine ⟨?_, ?_, ?_⟩
  · rw [owner, ← Nat.mod_mul_right_div_self, Nat.mod_mul_right_mod, Nat.mod_mul_right_div_self, owner]
  · rw [localOffset, ← Nat.div_div_eq_div_mul _ (turn * ranks)]
    nth_rewrite 1 [← whole]
    ring
  · have := Nat.mul_le_mul_left turn less
    grind

/-- Blocks that cut a turn give the start of the next one to the first rank. -/
theorem exists_owner_ne {size : Nat} (several : 1 < ranks) (cuts : ¬ turn ∣ size) :
    ∃ pos, owner turn ranks (pos % (size * ranks)) ≠ owner turn ranks pos := by
  have first {pos : Nat} (less : pos < turn) : owner turn ranks pos = 0 := by
    rw [owner, Nat.div_eq_of_lt less, Nat.zero_mod]
  by_cases zero : owner turn ranks (size * ranks) = 0
  · have whole := Nat.div_add_mod (size * ranks) (turn * ranks)
    have less : size * ranks % (turn * ranks) < turn := by
      rw [owner, ← Nat.mod_mul_right_div_self] at zero
      exact Nat.lt_of_div_eq_zero turn_pos zero
    have rest : size * ranks % (turn * ranks) ≠ 0 := fun none =>
      cuts (Nat.dvd_of_mul_dvd_mul_right (Nat.zero_lt_of_lt several) (Nat.dvd_of_mod_eq_zero none))
    have next : size * ranks + (turn - size * ranks % (turn * ranks)) =
        turn * (ranks * (size * ranks / (turn * ranks)) + 1) := by
      rw [Nat.mul_succ, ← mul_assoc]
      omega
    refine ⟨size * ranks + (turn - size * ranks % (turn * ranks)), ?_⟩
    rw [Nat.add_mod_left, first ((Nat.mod_le _ _).trans_lt (by omega)), next, owner,
      Nat.mul_div_cancel_left _ turn_pos, Nat.mul_add_mod, Nat.mod_eq_of_lt several]
    decide
  · refine ⟨size * ranks, ?_⟩
    rw [Nat.mod_self, first turn_pos]
    exact Ne.symm zero

end VllmCore.Lib.Turns
