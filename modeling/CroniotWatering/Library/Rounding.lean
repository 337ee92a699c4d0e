import Mathlib.Algebra.Order.Floor.Ring
import Mathlib.Data.Rat.Floor
import Mathlib.Tactic.Linarith
import Mathlib.Tactic.NormNum

set_option autoImplicit false

/-! # `std::round`

Rounding to the nearest integer with halves away from zero, over exact rationals. -/

/-- `std::round`. -/
def stdRound (q : ℚ) : ℤ :=
  if 0 ≤ q then ⌊q + 1 / 2⌋ else -⌊-q + 1 / 2⌋

theorem stdRound_of_nonneg {q : ℚ} (h : 0 ≤ q) : stdRound q = ⌊q + 1 / 2⌋ := if_pos h

theorem stdRound_intCast (n : ℤ) : stdRound n = n := by
  have hfloor : ∀ m : ℤ, ⌊(m : ℚ) + 1 / 2⌋ = m := by
    intro m
    rw [Int.floor_intCast_add]
    norm_num
  unfold stdRound
  split
  · exact hfloor n
  · rw [← Int.cast_neg, hfloor, neg_neg]

/-- Values at least one apart round to different integers. -/
theorem stdRound_lt_of_add_one_le {q r : ℚ} (hq : 0 ≤ q) (h : q + 1 ≤ r) :
    stdRound q < stdRound r := by
  rw [stdRound_of_nonneg hq, stdRound_of_nonneg (by linarith)]
  have hle : ⌊q + 1 / 2 + 1⌋ ≤ ⌊r + 1 / 2⌋ := Int.floor_le_floor (by linarith)
  rw [Int.floor_add_one] at hle
  omega
