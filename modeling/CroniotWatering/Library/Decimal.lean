import CroniotWatering.Library.Fixed
import Mathlib.Data.List.DropRight
import Mathlib.Algebra.Order.Field.Rat
import Mathlib.Tactic.FieldSimp
import Mathlib.Tactic.Linarith

set_option autoImplicit false

/-! # The number a text denotes

Decimal texts: an optional minus sign, digits, and optionally a point and places. Printing a number and
reading it back rounds it to the places printed, and zeros at the end of the places can go. -/

namespace Decimal

/-- The value of digits with an optional point among them. -/
def unsigned (cs : List Char) : ℚ :=
  let places := (cs.dropWhile (· ≠ '.')).drop 1
  Nat.ofDigitChars 10 (cs.takeWhile (· ≠ '.')) 0 + Nat.ofDigitChars 10 places 0 / 10 ^ places.length

/-- The value of a text. -/
def value (s : String) : ℚ :=
  match s.toList with
  | '-' :: cs => -unsigned cs
  | cs => unsigned cs

example : value "-12.50" = -25 / 2 := by decide +kernel

/-! ## Digits and places -/

variable {digits places : List Char}

theorem ne_point (hdigits : '.' ∉ digits) : ∀ c ∈ digits, decide (c ≠ '.') = true := by
  intro c hc
  refine decide_eq_true ?_
  rintro rfl
  exact hdigits hc

theorem unsigned_of_digits (hdigits : '.' ∉ digits) : unsigned digits = Nat.ofDigitChars 10 digits 0 := by
  have hne := ne_point hdigits
  simp only [unsigned, List.takeWhile_eq_self_iff.2 hne, List.dropWhile_eq_nil_iff.2 hne]
  simp

theorem unsigned_append (hdigits : '.' ∉ digits) :
    unsigned (digits ++ '.' :: places)
      = Nat.ofDigitChars 10 digits 0 + Nat.ofDigitChars 10 places 0 / 10 ^ places.length := by
  have hne := ne_point hdigits
  simp only [unsigned, List.takeWhile_append_of_pos hne, List.dropWhile_append_of_pos hne]
  simp

theorem value_of_head {s : String} (h : s.toList.head? ≠ some '-') : value s = unsigned s.toList := by
  unfold value
  split
  · next heq =>
      rw [heq] at h
      exact absurd rfl h
  · rfl

theorem value_ofList_cons_minus (cs : List Char) :
    value (String.ofList ('-' :: cs)) = -unsigned cs := by
  simp [value]

/-! ## Whole numbers -/

theorem isDigit_of_mem_repr {n : ℕ} {c : Char} (hc : c ∈ n.repr.toList) : c.isDigit = true := by
  rw [Nat.toList_repr] at hc
  exact Nat.isDigit_of_mem_toDigits (by decide) (by decide) hc

theorem point_not_mem_repr (n : ℕ) : '.' ∉ n.repr.toList :=
  fun h => absurd (isDigit_of_mem_repr h) (by decide)

theorem repr_ne_nil (n : ℕ) : n.repr.toList ≠ [] := by
  rw [Nat.toList_repr]
  exact Nat.toDigits_ne_nil

/-- Only 0 starts with a zero. -/
theorem eq_zero_of_head?_toDigits {n : ℕ} (h : (Nat.toDigits 10 n).head? = some '0') : n = 0 := by
  induction n using Nat.strong_induction_on with
  | _ n ih =>
      by_cases hsmall : n < 10
      · rw [Nat.toDigits_of_lt_base hsmall] at h
        exact Nat.digitChar_eq_zero.1 (Option.some.inj h)
      · -- the first digit is that of `n / 10`, which is not 0
        rw [Nat.toDigits_of_base_le (by decide) (by omega),
          List.head?_append_of_ne_nil _ Nat.toDigits_ne_nil] at h
        have hdiv := ih (n / 10) (by omega) h
        omega

theorem repr_of_head?_zero {n : ℕ} (h : n.repr.toList.head? = some '0') :
    n.repr.toList = ['0'] := by
  rw [Nat.toList_repr] at h ⊢
  rw [eq_zero_of_head?_toDigits h, Nat.toDigits_zero]

/-- Digits do not start with a sign. -/
theorem head?_append_digits (hne : digits ≠ []) (hdigits : ∀ c ∈ digits, c.isDigit = true)
    (cs : List Char) : (digits ++ cs).head? ≠ some '-' := by
  intro h
  rw [List.head?_append_of_ne_nil _ hne] at h
  exact absurd (hdigits _ (List.mem_of_mem_head? h)) (by decide)

theorem head?_append_repr (n : ℕ) (cs : List Char) : (n.repr.toList ++ cs).head? ≠ some '-' :=
  head?_append_digits (repr_ne_nil n) (fun _ => isDigit_of_mem_repr) cs

theorem unsigned_repr (n : ℕ) : unsigned n.repr.toList = n := by
  rw [unsigned_of_digits (point_not_mem_repr n), Nat.toList_repr, Nat.ofDigitChars_ten_toDigits]

/-- A number is printed as itself. -/
theorem value_toString_nat (n : ℕ) : value (toString n) = n := by
  have hhead : n.repr.toList.head? ≠ some '-' := by
    simpa using head?_append_repr n []
  rw [Nat.toString_eq_repr, value_of_head hhead, unsigned_repr]

/-- An integer is printed as itself. -/
theorem value_toString (z : ℤ) : value (toString z) = z := by
  rw [Int.toString_eq_repr, Int.repr_eq_if]
  by_cases hz : 0 ≤ z
  · have hhead : z.toNat.repr.toList.head? ≠ some '-' := by
      simpa using head?_append_repr z.toNat []
    have hcast : ((z.toNat : ℤ) : ℚ) = z := by rw [Int.toNat_of_nonneg hz]
    rw [if_pos hz, value_of_head hhead, unsigned_repr]
    exact hcast
  · have hminus : "-" ++ (-z).toNat.repr = String.ofList ('-' :: (-z).toNat.repr.toList) := by
      rw [← String.toList_inj]
      simp
    have hcast : (((-z).toNat : ℤ) : ℚ) = -z := by
      rw [Int.toNat_of_nonneg (by omega)]
      push_cast
      rfl
    rw [if_neg hz, hminus, value_ofList_cons_minus, unsigned_repr]
    have hneg : ((-z).toNat : ℚ) = -z := hcast
    rw [hneg, neg_neg]

/-! ## Places filled up with zeros -/

theorem toList_zeroPadded (width n : ℕ) :
    (zeroPadded width n).toList
      = List.replicate (width - (toString n).length) '0' ++ n.repr.toList := by
  simp [zeroPadded]

theorem length_zeroPadded {width n : ℕ} (hn : n < 10 ^ width) (hwidth : 0 < width) :
    (zeroPadded width n).toList.length = width := by
  have hlength : (toString n).length ≤ width := by
    rw [Nat.toString_eq_repr, ← String.length_toList, Nat.toList_repr]
    exact (Nat.length_toDigits_le_iff (by decide) hwidth).2 hn
  rw [toList_zeroPadded, List.length_append, List.length_replicate, String.length_toList]
  rw [Nat.toString_eq_repr] at hlength ⊢
  omega

theorem ofDigitChars_zeroPadded (width n : ℕ) :
    Nat.ofDigitChars 10 (zeroPadded width n).toList 0 = n := by
  rw [toList_zeroPadded, Nat.ofDigitChars_append, Nat.ofDigitChars_replicate_zero, Nat.mul_zero,
    Nat.toList_repr, Nat.ofDigitChars_ten_toDigits]

theorem isDigit_of_mem_zeroPadded {width n : ℕ} {c : Char} (hc : c ∈ (zeroPadded width n).toList) :
    c.isDigit = true := by
  rw [toList_zeroPadded, List.mem_append, List.mem_replicate] at hc
  rcases hc with ⟨-, rfl⟩ | hc
  · decide
  · exact isDigit_of_mem_repr hc

/-- A number that is not negative, as it is printed. -/
theorem toList_toFixed {places : ℕ} {q : ℚ} (hq : 0 ≤ q) :
    ∃ n : ℕ, n = (roundHalfEven (q * 10 ^ places)).toNat ∧
      (toFixed places q).toList = (n / 10 ^ places).repr.toList
        ++ '.' :: (zeroPadded places (n % 10 ^ places)).toList := by
  refine ⟨_, rfl, ?_⟩
  simp [toFixed, not_lt.2 hq, abs_of_nonneg hq]

theorem unsigned_toFixed {places : ℕ} {q : ℚ} (hq : 0 ≤ q) (hplaces : 0 < places) :
    unsigned (toFixed places q).toList = (roundHalfEven (q * 10 ^ places)).toNat / 10 ^ places := by
  obtain ⟨n, hn, htext⟩ := @toList_toFixed places q hq
  have hpow : 0 < 10 ^ places := Nat.pow_pos (by decide)
  rw [htext, unsigned_append (point_not_mem_repr _),
    length_zeroPadded (Nat.mod_lt n hpow) hplaces, ofDigitChars_zeroPadded, Nat.toList_repr,
    Nat.ofDigitChars_ten_toDigits, ← hn]
  -- the digits before and after the point make up the number of units
  have hsplit : ((10 ^ places * (n / 10 ^ places) + n % 10 ^ places : ℕ) : ℚ) = n :=
    congrArg _ (Nat.div_add_mod n (10 ^ places))
  push_cast at hsplit
  field_simp
  linarith

/-- **Printing rounds.** -/
theorem value_toFixed {places : ℕ} {q : ℚ} (hq : 0 ≤ q) (hplaces : 0 < places) :
    value (toFixed places q) = (roundHalfEven (q * 10 ^ places)).toNat / 10 ^ places := by
  obtain ⟨n, -, htext⟩ := @toList_toFixed places q hq
  have hhead : (toFixed places q).toList.head? ≠ some '-' := by
    rw [htext]
    exact head?_append_repr _ _
  rw [value_of_head hhead, unsigned_toFixed hq hplaces]

/-! ## Zeros at the end -/

/-- Drop the zeros at the end, and then a point at the end. -/
def trim (cs : List Char) : List Char :=
  let erased := cs.rdropWhile (· = '0')
  if erased.getLast? = some '.' then erased.dropLast else erased

theorem trim_prefix (cs : List Char) : trim cs <+: cs := by
  have herased := List.rdropWhile_prefix (· = '0') cs
  unfold trim
  dsimp only
  split
  · exact (List.dropLast_prefix _).trans herased
  · exact herased

/-- What is dropped at the end stays behind the last element that is kept. -/
theorem rdropWhile_append_cons {α : Type} {p : α → Bool} {x : α} (hx : ¬ p x) (xs ys : List α) :
    (xs ++ x :: ys).rdropWhile p = xs ++ x :: ys.rdropWhile p := by
  induction ys using List.reverseRecOn with
  | nil => rw [List.rdropWhile_concat_neg p xs x hx, List.rdropWhile_nil]
  | append_singleton ys y ih =>
      have hsplit : xs ++ x :: (ys ++ [y]) = xs ++ x :: ys ++ [y] := by simp
      rw [hsplit]
      by_cases hy : p y
      · rw [List.rdropWhile_concat_pos p _ y hy, List.rdropWhile_concat_pos p ys y hy, ih]
      · rw [List.rdropWhile_concat_neg p _ y hy, List.rdropWhile_concat_neg p ys y hy]
        simp

/-- What is left of a point and the places behind it: the point goes if the places do. -/
def fraction (places : List Char) : List Char :=
  if places.rdropWhile (· = '0') = [] then [] else '.' :: places.rdropWhile (· = '0')

/-- Trimming leaves the digits alone. -/
theorem trim_append (hplaces : '.' ∉ places) :
    trim (digits ++ '.' :: places) = digits ++ fraction places := by
  have herased : (digits ++ '.' :: places).rdropWhile (· = '0')
      = digits ++ '.' :: places.rdropWhile (· = '0') :=
    rdropWhile_append_cons (by decide) digits places
  unfold trim fraction
  simp only [herased]
  generalize hkept : places.rdropWhile (· = '0') = kept
  by_cases hnil : kept = []
  · simp [hnil]
  · -- the last character is one of the places, and so no point
    have hlast : (digits ++ '.' :: kept).getLast? ≠ some '.' := by
      intro hpoint
      rw [List.getLast?_append_cons, List.getLast?_cons_of_ne_nil hnil] at hpoint
      have hmem : '.' ∈ places.rdropWhile (· = '0') := hkept ▸ List.mem_of_getLast? hpoint
      exact hplaces ((List.rdropWhile_prefix _ _).subset hmem)
    rw [if_neg hlast, if_neg hnil]

/-- Zeros at the end of the places do not count. -/
theorem ofDigitChars_rdropWhile (cs : List Char) :
    (Nat.ofDigitChars 10 cs 0 : ℚ) / 10 ^ cs.length
      = Nat.ofDigitChars 10 (cs.rdropWhile (· = '0')) 0
        / 10 ^ (cs.rdropWhile (· = '0')).length := by
  induction cs using List.reverseRecOn with
  | nil => rfl
  | append_singleton cs c ih =>
      by_cases hc : c = '0'
      · -- one zero more is a factor of ten above and below
        subst hc
        rw [List.rdropWhile_concat_pos _ cs '0' (by decide), ← ih, Nat.ofDigitChars_append]
        simp only [Nat.ofDigitChars_cons, Nat.ofDigitChars_nil, List.length_append,
          List.length_singleton, pow_succ]
        push_cast
        field_simp
        simp
      · rw [List.rdropWhile_concat_neg _ cs c (by simpa using hc)]

/-- **Trimming keeps the value.** -/
theorem unsigned_fraction (hdigits : '.' ∉ digits) :
    unsigned (digits ++ fraction places) = unsigned (digits ++ '.' :: places) := by
  unfold fraction
  rw [unsigned_append hdigits, ofDigitChars_rdropWhile places]
  by_cases hnil : places.rdropWhile (· = '0') = []
  · rw [if_pos hnil, List.append_nil, unsigned_of_digits hdigits, hnil]
    simp
  · rw [if_neg hnil, unsigned_append hdigits]

end Decimal
