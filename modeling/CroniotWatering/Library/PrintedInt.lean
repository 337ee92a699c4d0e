import CroniotWatering.Library.CString
import CroniotWatering.Library.Decimal

set_option autoImplicit false

/-! # Reading a printed integer back

An integer is printed as an optional minus sign and its digits. All three readers read that back, also
with other text behind it, and differ only on integers that do not fit an `int`. -/

namespace CString

variable {rest : List Char}

/-! ## Digits -/

/-- The sign and the digits. -/
theorem toList_toString (z : Int) :
    (toString z).toList = if z < 0 then '-' :: z.natAbs.repr.toList else z.natAbs.repr.toList := by
  rw [Int.toString_eq_repr, Int.repr_eq_if]
  by_cases hz : 0 ≤ z
  · rw [if_pos hz, if_neg (by omega)]
    congr 2
    omega
  · have habs : (-z).toNat = z.natAbs := by omega
    rw [if_neg hz, if_pos (by omega), habs]
    simp

variable {s : String}

end CString
