import CroniotWatering.Library.CInt

set_option autoImplicit false

/-! # Reading an `int` from a string

The three standard readers, base 10: `std::from_chars`, `std::stoi` and `atoi`. They share the digit
loop and differ in what they let stand in front of the digits and in how they report a string they
cannot read. A `std::string` is a `String` here; only ASCII characters steer any of the readers, and
a character that is not a digit ends the number, whatever it is. -/

namespace CString

/-- How a reader rejects a string: no number at its start, or one that does not fit an `int`. -/
inductive ParseError where
  | invalidArgument
  | outOfRange
deriving DecidableEq

/-- The value of a list of decimal digits. -/
def decimalValue (ds : List Char) : ℕ :=
  ds.foldl (fun n c => 10 * n + (c.toNat - '0'.toNat)) 0

/-- A magnitude under its sign. -/
def signed (neg : Bool) (n : ℕ) : Int := if neg then -(n : Int) else (n : Int)

/-- A number, if it fits an `int`. -/
def signedValue (neg : Bool) (n : ℕ) : Except ParseError Int :=
  if CInt.InRange (signed neg n) then .ok (signed neg n) else .error .outOfRange

/-- The longest digit prefix, with the sign already read; text after it is ignored. -/
def signedDigits (neg : Bool) (cs : List Char) : Except ParseError Int :=
  match cs.takeWhile Char.isDigit with
  | [] => .error .invalidArgument
  | ds => signedValue neg (decimalValue ds)

/-- `std::from_chars(first, last, value)` for `int`: an optional `-`, then the digits. Neither white
    space nor `+` is accepted. -/
def fromChars (s : String) : Except ParseError Int :=
  match s.toList with
  | '-' :: cs => signedDigits true cs
  | cs => signedDigits false cs

/-- `isspace` in the C locale: space, `\t`, `\n`, `\v`, `\f`, `\r`. -/
def isSpace (c : Char) : Bool := c.toNat = 32 || (9 ≤ c.toNat && c.toNat ≤ 13)

/-- `std::stoi(s)`: leading white space, an optional sign, then the digits. An error is an
    exception. -/
def stoi (s : String) : Except ParseError Int :=
  match s.toList.dropWhile isSpace with
  | '-' :: cs => signedDigits true cs
  | '+' :: cs => signedDigits false cs
  | cs => signedDigits false cs

/-- `atoi(s)`: the grammar of `stoi`, with 0 for a string that starts no number. Out of range it is
    the C library's `strtol` that decides, which saturates. -/
def atoi (s : String) : Int :=
  match stoi s with
  | .ok v => v
  | .error .invalidArgument => 0
  | .error .outOfRange =>
      match s.toList.dropWhile isSpace with
      | '-' :: _ => CInt.minValue
      | _ => CInt.maxValue

/-- A reader's value fits an `int`. -/
theorem signedValue_inRange {neg : Bool} {n : ℕ} {v : Int} (h : signedValue neg n = .ok v) :
    CInt.InRange v := by
  unfold signedValue at h
  split at h
  · next hr =>
      cases h
      exact hr
  · cases h

theorem signedDigits_inRange {neg : Bool} {cs : List Char} {v : Int}
    (h : signedDigits neg cs = .ok v) : CInt.InRange v := by
  unfold signedDigits at h
  split at h
  · cases h
  · exact signedValue_inRange h

theorem stoi_inRange {s : String} {v : Int} (h : stoi s = .ok v) : CInt.InRange v := by
  unfold stoi at h
  split at h <;> exact signedDigits_inRange h

/-! ## Where the readers differ -/

/-- The string starts as `stoi` allows and `from_chars` does not: with white space or a `+`. -/
def startsLenient (s : String) : Bool :=
  match s.toList with
  | c :: _ => isSpace c || c = '+'
  | [] => false

/-- Neither is a digit or a minus sign. -/
theorem not_digit_of_lenient {c : Char} (h : (isSpace c || c = '+') = true) :
    c.isDigit = false ∧ c ≠ '-' := by
  have hnat : c.toNat ≤ 43 := by
    simp only [isSpace, Bool.or_eq_true, decide_eq_true_eq, Bool.and_eq_true] at h
    rcases h with (hspace | hcontrol) | hplus
    · omega
    · omega
    · rw [hplus]
      decide
  refine ⟨?_, ?_⟩
  · rw [Bool.eq_false_iff, Ne, Char.isDigit_iff_toNat]
    intro hdigit
    have hlo : 48 ≤ c.toNat := hdigit.1
    omega
  · rintro rfl
    exact absurd hnat (by decide)

/-- Such a string is no number to `from_chars`. -/
theorem fromChars_of_lenient {s : String} (h : startsLenient s = true) :
    fromChars s = .error .invalidArgument := by
  unfold startsLenient at h
  unfold fromChars
  cases hs : s.toList with
  | nil => simp [hs] at h
  | cons c cs =>
      rw [hs] at h
      obtain ⟨hdigit, hminus⟩ := not_digit_of_lenient h
      simp [hminus, signedDigits, hdigit]

/-- On every other string the two agree. -/
theorem fromChars_eq_stoi {s : String} (h : startsLenient s = false) : fromChars s = stoi s := by
  unfold startsLenient at h
  unfold fromChars stoi
  cases hs : s.toList with
  | nil => rfl
  | cons c cs =>
      rw [hs] at h
      simp only [Bool.or_eq_false_iff, decide_eq_false_iff_not] at h
      obtain ⟨hspace, hplus⟩ := h
      rw [List.dropWhile_cons_of_neg (by simp [hspace])]
      by_cases hminus : c = '-'
      · simp [hminus]
      · simp [hminus, hplus]

end CString
