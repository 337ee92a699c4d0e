import Mathlib.Data.Rat.Floor
import Mathlib.Algebra.Order.Floor.Ring
import Mathlib.Tactic.Linarith

set_option autoImplicit false

/-! # Fixed-point text

What `printf("%.*f")` prints for an exact rational: a sign, the digits of the integer part, a point,
and the given number of places, rounded to the nearest with ties to even. -/

/-- Rounding to the nearest integer, ties to even. -/
def roundHalfEven (q : ℚ) : ℤ :=
  let rest := q - ⌊q⌋
  if rest < 1 / 2 then ⌊q⌋
  else if 1 / 2 < rest then ⌊q⌋ + 1
  else if 2 ∣ ⌊q⌋ then ⌊q⌋ else ⌊q⌋ + 1

/-- Rounding goes to one of the two neighbours. -/
theorem roundHalfEven_mem (q : ℚ) : ⌊q⌋ ≤ roundHalfEven q ∧ roundHalfEven q ≤ ⌊q⌋ + 1 := by
  unfold roundHalfEven
  dsimp only
  split
  · omega
  · split
    · omega
    · split <;> omega

theorem roundHalfEven_nonneg {q : ℚ} (hq : 0 ≤ q) : 0 ≤ roundHalfEven q :=
  le_trans (Int.floor_nonneg.2 hq) (roundHalfEven_mem q).1

/-- What rounds to at most an even integer: everything up to half a unit above it. -/
theorem roundHalfEven_le_iff {q : ℚ} {n : ℤ} (hn : 2 ∣ n) : roundHalfEven q ≤ n ↔ q ≤ n + 1 / 2 := by
  have hmem := roundHalfEven_mem q
  have hfloor := Int.floor_le q
  have hlt := Int.lt_floor_add_one q
  rcases lt_trichotomy ⌊q⌋ n with hbelow | hequal | habove
  · have hcast : ((⌊q⌋ : ℤ) : ℚ) + 1 ≤ n := by exact_mod_cast hbelow
    exact iff_of_true (by omega) (by linarith)
  · -- `n` is the floor, and a tie goes to `n`
    subst hequal
    unfold roundHalfEven
    dsimp only
    split
    · next hrest => exact iff_of_true (le_refl _) (by linarith)
    · split
      · next hrest => exact iff_of_false (by omega) (by linarith)
      · next hlow hhigh => exact iff_of_true (le_refl _) (by linarith)
  · have hcast : (n : ℚ) + 1 ≤ ((⌊q⌋ : ℤ) : ℚ) := by exact_mod_cast habove
    exact iff_of_false (by omega) (by linarith)

/-- The digits of `n`, filled up with zeros to a given width. -/
def zeroPadded (width n : ℕ) : String :=
  String.ofList (List.replicate (width - (toString n).length) '0') ++ toString n

def toFixed (places : ℕ) (q : ℚ) : String :=
  let scaled := (roundHalfEven (|q| * 10 ^ places)).toNat
  (if q < 0 then "-" else "") ++ toString (scaled / 10 ^ places) ++ "."
    ++ zeroPadded places (scaled % 10 ^ places)

/-- The point is always printed. -/
theorem point_mem_toFixed (places : ℕ) (q : ℚ) : '.' ∈ (toFixed places q).toList := by
  simp [toFixed]

theorem toFixed_ne {places : ℕ} {q : ℚ} {s : String} (hs : '.' ∉ s.toList) :
    toFixed places q ≠ s := by
  rintro rfl
  exact hs (point_mem_toFixed places q)

example : toFixed 6 (-3 / 8) = "-0.375000" := by decide +kernel
