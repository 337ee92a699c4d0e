import CroniotWatering.Library.Decimal

set_option autoImplicit false

/-! # Texts with a fixed number of places

The shape of what `toFixed` prints, and what trimming makes of any text of that shape: the shortest
text for the same number. -/

namespace Decimal

/-- An optional minus sign, digits without superfluous leading zeros, and `width` places behind a
    point. -/
structure FixedText (width : ℕ) where
  negative : Bool
  digits : List Char
  places : List Char
  digits_ne_nil : digits ≠ []
  isDigit : ∀ c ∈ digits ++ places, c.isDigit = true
  noLeadingZero : digits.head? = some '0' → digits = ['0']
  length_places : places.length = width

/-- The sign of a text. -/
def sign (negative : Bool) : List Char := if negative then ['-'] else []

theorem value_sign_append (negative : Bool) {cs : List Char} (h : cs.head? ≠ some '-') :
    value (String.ofList (sign negative ++ cs)) = if negative then -unsigned cs else unsigned cs := by
  cases negative with
  | true => exact value_ofList_cons_minus cs
  | false =>
      have hlist : (String.ofList (sign false ++ cs)).toList = cs := String.toList_ofList
      rw [value_of_head (by rwa [hlist]), hlist]
      rfl

namespace FixedText

variable {width : ℕ} (text : FixedText width)

/-- What stands in front of the point. -/
def integerPart : List Char := sign text.negative ++ text.digits

def chars : List Char := text.integerPart ++ '.' :: text.places

def toString : String := String.ofList text.chars

@[simp] theorem toList_toString : text.toString.toList = text.chars := String.toList_ofList

theorem point_not_mem_digits : '.' ∉ text.digits :=
  fun h => absurd (text.isDigit _ (List.mem_append_left _ h)) (by decide)

theorem point_not_mem_places : '.' ∉ text.places :=
  fun h => absurd (text.isDigit _ (List.mem_append_right _ h)) (by decide)

theorem point_not_mem_integerPart : '.' ∉ text.integerPart := by
  rw [integerPart, List.mem_append]
  rintro (h | h)
  · revert h
    cases text.negative <;> decide
  · exact text.point_not_mem_digits h

/-! ## What is printed -/

/-- What `toFixed` prints has this shape. -/
def ofRat (hwidth : 0 < width) (q : ℚ) : FixedText width :=
  let scaled := (roundHalfEven (|q| * 10 ^ width)).toNat
  { negative := decide (q < 0)
    digits := (scaled / 10 ^ width).repr.toList
    places := (zeroPadded width (scaled % 10 ^ width)).toList
    digits_ne_nil := repr_ne_nil _
    isDigit := by
      intro c hc
      rcases List.mem_append.1 hc with hdigit | hplace
      · exact isDigit_of_mem_repr hdigit
      · exact isDigit_of_mem_zeroPadded hplace
    noLeadingZero := repr_of_head?_zero
    length_places := length_zeroPadded (Nat.mod_lt _ (Nat.pow_pos (by decide))) hwidth }

theorem toString_ofRat (hwidth : 0 < width) (q : ℚ) : (ofRat hwidth q).toString = toFixed width q := by
  rw [← String.toList_inj, toList_toString]
  by_cases hneg : q < 0
  · simp [chars, integerPart, sign, ofRat, toFixed, hneg]
  · simp [chars, integerPart, sign, ofRat, toFixed, hneg]

/-! ## What trimming leaves -/

theorem trim_chars : trim text.chars = text.integerPart ++ fraction text.places :=
  trim_append text.point_not_mem_places

/-- **Trimming keeps the number.** -/
theorem value_trim : value (String.ofList (trim text.chars)) = value text.toString := by
  have hhead := head?_append_digits text.digits_ne_nil fun c hc =>
    text.isDigit c (List.mem_append_left _ hc)
  rw [trim_chars, toString, chars, integerPart, List.append_assoc, List.append_assoc,
    value_sign_append _ (hhead _), value_sign_append _ (hhead _),
    unsigned_fraction text.point_not_mem_digits]

/-- Trimming keeps what stands in front of the point. -/
theorem takeWhile_trim : (trim text.chars).takeWhile (· ≠ '.') = text.integerPart := by
  have hfraction : (fraction text.places).takeWhile (· ≠ '.') = [] := by
    unfold fraction
    split
    · rfl
    · simp
  rw [trim_chars, List.takeWhile_append_of_pos (ne_point text.point_not_mem_integerPart), hfraction,
    List.append_nil]

/-- What is left ends in a digit, and in no zero behind a point. -/
theorem getLast?_trim : ∃ c, (trim text.chars).getLast? = some c ∧ c.isDigit = true ∧
    ('.' ∈ trim text.chars → c ≠ '0') := by
  rw [trim_chars]
  by_cases hnil : text.places.rdropWhile (· = '0') = []
  · -- no place is left, and no point: the last digit
    have hfraction : fraction text.places = [] := if_pos hnil
    obtain ⟨c, hc⟩ := Option.ne_none_iff_exists'.1
      (List.getLast?_eq_none_iff.not.2 text.digits_ne_nil)
    refine ⟨c, ?_, text.isDigit c (List.mem_append_left _ (List.mem_of_getLast? hc)), fun hpoint => ?_⟩
    · rw [hfraction, List.append_nil, integerPart, List.getLast?_append_of_ne_nil _ text.digits_ne_nil, hc]
    · rw [hfraction, List.append_nil] at hpoint
      exact absurd hpoint text.point_not_mem_integerPart
  · -- the last place that is left
    have hfraction : fraction text.places = '.' :: text.places.rdropWhile (· = '0') := if_neg hnil
    have hmem := (List.rdropWhile_prefix (· = '0') text.places).subset (List.getLast_mem hnil)
    refine ⟨_, ?_, text.isDigit _ (List.mem_append_right _ hmem), fun _ => ?_⟩
    · rw [hfraction, List.getLast?_append_cons, List.getLast?_cons_of_ne_nil hnil,
        List.getLast?_eq_some_getLast hnil]
    · simpa using List.rdropWhile_last_not (· = '0') text.places hnil

end FixedText

end Decimal
