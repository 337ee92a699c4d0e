import CroniotWatering.Library.Exec

set_option autoImplicit false

/-! # 32-bit `int`

C++ `int` on a target where it has 32 bits: values are mathematical integers, and an operation whose
result leaves the range faults, since signed overflow has no defined meaning. -/

namespace CInt

/-- `INT_MAX`. -/
def maxValue : Int := 2147483647

/-- `INT_MIN`. -/
def minValue : Int := -2147483648

/-- `z` is representable as an `int`. -/
def InRange (z : Int) : Prop := minValue ≤ z ∧ z ≤ maxValue

instance (z : Int) : Decidable (InRange z) := inferInstanceAs (Decidable (_ ∧ _))

variable {ε ω : Type}

/-- The result of an `int` operation whose exact value is `z`. -/
def checked (overflow : ε) (z : Int) : Exec ε ω Int :=
  if InRange z then pure z else Exec.fault overflow

/-- `a + b` on `int`. -/
def add (overflow : ε) (a b : Int) : Exec ε ω Int := checked overflow (a + b)

/-- `a * b` on `int`. -/
def mul (overflow : ε) (a b : Int) : Exec ε ω Int := checked overflow (a * b)

theorem checked_of_inRange {z : Int} (overflow : ε) (h : InRange z) :
    (checked overflow z : Exec ε ω Int) = ⟨[], .ok z⟩ := if_pos h

theorem add_of_inRange {a b : Int} (overflow : ε) (h : InRange (a + b)) :
    (add overflow a b : Exec ε ω Int) = ⟨[], .ok (a + b)⟩ := checked_of_inRange overflow h

theorem mul_of_inRange {a b : Int} (overflow : ε) (h : InRange (a * b)) :
    (mul overflow a b : Exec ε ω Int) = ⟨[], .ok (a * b)⟩ := checked_of_inRange overflow h

theorem inRange_of_bounds {z : Int} (lo : -2147483648 ≤ z) (hi : z ≤ 2147483647) : InRange z :=
  ⟨lo, hi⟩

/-- An `int` operation emits nothing, whether it overflows or not. -/
@[simp] theorem checked_trace (overflow : ε) (z : Int) :
    (checked overflow z : Exec ε ω Int).trace = [] := by
  unfold checked
  split <;> rfl

@[simp] theorem mul_trace (overflow : ε) (a b : Int) :
    (mul overflow a b : Exec ε ω Int).trace = [] := checked_trace overflow _

/-! ## `std::clamp` -/

/-- `std::clamp(v, lo, hi)`: two comparisons, in this order. -/
def clamp (v lo hi : Int) : Int :=
  if v < lo then lo else if hi < v then hi else v

theorem le_clamp (v : Int) {lo hi : Int} (h : lo ≤ hi) : lo ≤ clamp v lo hi := by
  unfold clamp
  split
  · exact Int.le_refl lo
  · split <;> omega

theorem clamp_le (v : Int) {lo hi : Int} (h : lo ≤ hi) : clamp v lo hi ≤ hi := by
  unfold clamp
  split
  · exact h
  · split <;> omega

/-! ## Division -/

/-- A negative dividend is divided as its magnitude is. -/
theorem tdiv_of_nonpos {a : Int} (ha : a ≤ 0) (n : Int) : a.tdiv n = -(-a / n) := by
  rw [← Int.tdiv_eq_ediv_of_nonneg (by omega), Int.neg_tdiv, Int.neg_neg]

/-- `a / b` rounds toward zero, and so never leaves a range of integers that the exact quotient lies
    in. -/
theorem tdiv_mem_of_mul_le {a n lo hi : Int} (hn : 0 < n) (hlo : lo * n ≤ a) (hhi : a ≤ hi * n) :
    lo ≤ a.tdiv n ∧ a.tdiv n ≤ hi := by
  by_cases ha : 0 ≤ a
  · rw [Int.tdiv_eq_ediv_of_nonneg ha]
    exact ⟨Int.le_ediv_of_mul_le hn hlo, Int.ediv_le_of_le_mul hn hhi⟩
  · have hupper : -a / n ≤ -lo := Int.ediv_le_of_le_mul hn (by rw [Int.neg_mul]; omega)
    have hlower : -hi ≤ -a / n := Int.le_ediv_of_mul_le hn (by rw [Int.neg_mul]; omega)
    rw [tdiv_of_nonpos (by omega)]
    omega

end CInt
