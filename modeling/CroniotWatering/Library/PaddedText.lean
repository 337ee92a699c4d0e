import CroniotWatering.Library.Decimal
import Mathlib.Data.String.Basic

set_option autoImplicit false

/-! # Numbers filled up to a fixed width

Numbers of a fixed width are ordered as texts the way they are as numbers, and so are texts made of
several of them, from left to right. -/

namespace Decimal

/-! ## Texts of equal length -/

/-- Texts with parts of equal length are compared part by part. -/
theorem append_lt_append_iff {xs ys as bs : List Char} (hlength : xs.length = ys.length) :
    xs ++ as < ys ++ bs ↔ xs < ys ∨ xs = ys ∧ as < bs := by
  induction xs generalizing ys with
  | nil =>
      have hys : ys = [] := List.length_eq_zero_iff.1 hlength.symm
      simp [hys]
  | cons x xs ih =>
      obtain ⟨y, ys', rfl⟩ := List.exists_cons_of_length_eq_add_one hlength.symm
      have hrest : xs.length = ys'.length := by simpa using hlength
      simp only [List.cons_append, List.cons_lt_cons_iff, ih hrest, List.cons.injEq]
      constructor
      · rintro (hlt | ⟨rfl, hlt | ⟨rfl, hlt⟩⟩)
        · exact Or.inl (Or.inl hlt)
        · exact Or.inl (Or.inr ⟨rfl, hlt⟩)
        · exact Or.inr ⟨⟨rfl, rfl⟩, hlt⟩
      · rintro ((hlt | ⟨rfl, hlt⟩) | ⟨⟨rfl, rfl⟩, hlt⟩)
        · exact Or.inl hlt
        · exact Or.inr ⟨rfl, Or.inl hlt⟩
        · exact Or.inr ⟨rfl, Or.inr ⟨rfl, hlt⟩⟩

/-! ## Digits -/

variable {width n m : ℕ}

theorem digitChar_lt_iff (hn : n < 10) (hm : m < 10) : Nat.digitChar n < Nat.digitChar m ↔ n < m := by
  have hall : ∀ n < 10, ∀ m < 10, (Nat.digitChar n < Nat.digitChar m ↔ n < m) := by decide
  exact hall n hn m hm

/-- The last digit of a number filled up to at least two places. -/
theorem toList_zeroPadded_succ (hwidth : 0 < width) (n : ℕ) :
    (zeroPadded (width + 1) n).toList
      = (zeroPadded width (n / 10)).toList ++ [Nat.digitChar (n % 10)] := by
  have hlength : ∀ n : ℕ, (toString n).length = (Nat.toDigits 10 n).length := by
    intro n
    rw [Nat.toString_eq_repr, ← String.length_toList, Nat.toList_repr]
  simp only [toList_zeroPadded, hlength, Nat.toList_repr]
  by_cases hsmall : n < 10
  · -- one digit, and the rest is all zeros
    have hzero : n / 10 = 0 := by omega
    have hmod : n % 10 = n := by omega
    obtain ⟨k, rfl⟩ : ∃ k, width = k + 1 := ⟨width - 1, by omega⟩
    rw [hzero, hmod, Nat.toDigits_of_lt_base hsmall, Nat.toDigits_zero]
    simp [List.replicate_succ']
  · rw [Nat.toDigits_of_base_le (by decide) (by omega), List.length_append, ← List.append_assoc]
    congr 3
    simp only [List.length_singleton]
    omega

/-- **Fixed width keeps the order.** -/
theorem zeroPadded_lt_iff (hwidth : 0 < width) (hn : n < 10 ^ width) (hm : m < 10 ^ width) :
    (zeroPadded width n).toList < (zeroPadded width m).toList ↔ n < m := by
  induction width, hwidth using Nat.le_induction generalizing n m with
  | base =>
      have hone : ∀ {n : ℕ}, n < 10 → (zeroPadded 1 n).toList = [Nat.digitChar n] := by
        intro n hn
        simp [toList_zeroPadded, Nat.toString_eq_repr, ← String.length_toList, Nat.toList_repr,
          Nat.toDigits_of_lt_base hn]
      rw [hone (by omega), hone (by omega), List.cons_lt_cons_iff]
      simp [digitChar_lt_iff (by omega : n < 10) (by omega : m < 10)]
  | succ width hwidth ih =>
      rw [pow_succ] at hn hm
      have hn' : n / 10 < 10 ^ width := by omega
      have hm' : m / 10 < 10 ^ width := by omega
      have hlength : (zeroPadded width (n / 10)).toList.length
          = (zeroPadded width (m / 10)).toList.length := by
        rw [length_zeroPadded hn' hwidth, length_zeroPadded hm' hwidth]
      have heq : (zeroPadded width (n / 10)).toList = (zeroPadded width (m / 10)).toList
          ↔ n / 10 = m / 10 := by
        refine ⟨fun heq => ?_, fun heq => by rw [heq]⟩
        rw [← ofDigitChars_zeroPadded width (n / 10), heq, ofDigitChars_zeroPadded]
      rw [toList_zeroPadded_succ hwidth, toList_zeroPadded_succ hwidth, append_lt_append_iff hlength,
        ih hn' hm', heq, List.cons_lt_cons_iff]
      simp only [digitChar_lt_iff (Nat.mod_lt n (by decide)) (Nat.mod_lt m (by decide)),
        List.lt_irrefl, and_false, or_false]
      omega

end Decimal
