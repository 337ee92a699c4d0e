import CroniotWatering.Library.PaddedText
import CroniotWatering.Sensors.Sensor

set_option autoImplicit false

/-! # The clock

`Sensors/SensorCurrentTimeLogic.cpp` and `Sensors/SensorCurrentTime.cpp`. The time comes from outside as
three integers, and nothing checks them: it is the buffer that bounds the text. Texts of times of day are
ordered as the times are. -/

namespace CroniotWatering

namespace SensorCurrentTimeLogic

/-- `%02d`, which counts the sign as a place. -/
def printed2 (n : Int) : String :=
  if n < 0 then "-" ++ zeroPadded 1 n.natAbs else zeroPadded 2 n.natAbs

/-- What is to be printed. -/
def hms (hour minute second : Int) : String :=
  printed2 hour ++ ":" ++ printed2 minute ++ ":" ++ printed2 second

/-- `snprintf` keeps what fits the 16 characters of the buffer, of which one ends the text. -/
def formatHms (hour minute second : Int) : String :=
  String.ofList ((hms hour minute second).toList.take 15)

end SensorCurrentTimeLogic

namespace SensorCurrentTime

open SensorCurrentTimeLogic

/-- What the controller of the time keeps. -/
structure DateTime where
  hour : Int
  minute : Int
  second : Int

/-- One cycle of `taskCurrentTime`. -/
def taskCurrentTime (dateTime : DateTime) : SensorCycle :=
  ⟨[.sendSensorData sensorCurrentTime (formatHms dateTime.hour dateTime.minute dateTime.second)], 1000⟩

end SensorCurrentTime

namespace SensorCurrentTimeLogic

/-! ## Reading the text back -/

/-- The numbers between the colons. -/
def fields (text : String) : List ℚ :=
  (text.toList.splitOn ':').map fun field => Decimal.value (String.ofList field)

/-- The characters of a number. -/
def IsNumeral (cs : List Char) : Prop := ∀ c ∈ cs, c = '-' ∨ c.isDigit = true

theorem toList_printed2 (n : Int) :
    (printed2 n).toList
      = if n < 0 then '-' :: (zeroPadded 1 n.natAbs).toList else (zeroPadded 2 n.natAbs).toList := by
  unfold printed2
  split
  · rw [String.toList_append]
    rfl
  · rfl

theorem isNumeral_printed2 (n : Int) : IsNumeral (printed2 n).toList := by
  intro c hc
  rw [toList_printed2] at hc
  split at hc
  · rcases List.mem_cons.1 hc with rfl | hc
    · exact Or.inl rfl
    · exact Or.inr (Decimal.isDigit_of_mem_zeroPadded hc)
  · exact Or.inr (Decimal.isDigit_of_mem_zeroPadded hc)

theorem colon_not_mem {cs : List Char} (h : IsNumeral cs) : ':' ∉ cs := by
  intro hmem
  rcases h _ hmem with heq | hdigit
  · exact absurd heq (by decide)
  · exact absurd hdigit (by decide)

theorem unsigned_zeroPadded (width n : ℕ) : Decimal.unsigned (zeroPadded width n).toList = n := by
  have hpoint : '.' ∉ (zeroPadded width n).toList := by
    intro hmem
    exact absurd (Decimal.isDigit_of_mem_zeroPadded hmem) (by decide)
  rw [Decimal.unsigned_of_digits hpoint, Decimal.ofDigitChars_zeroPadded]

/-- **A number reads back.** -/
theorem value_printed2 (n : Int) : Decimal.value (printed2 n) = n := by
  unfold printed2
  by_cases hneg : n < 0
  · have hminus : "-" ++ zeroPadded 1 n.natAbs
        = String.ofList ('-' :: (zeroPadded 1 n.natAbs).toList) := by
      rw [← String.toList_inj]
      simp
    have habs : ((n.natAbs : ℤ) : ℚ) = -n := by
      rw [Int.ofNat_natAbs_of_nonpos (by omega)]
      push_cast
      rfl
    rw [Int.cast_natCast] at habs
    rw [if_pos hneg, hminus, Decimal.value_ofList_cons_minus, unsigned_zeroPadded, habs, neg_neg]
  · have hhead : (zeroPadded 2 n.natAbs).toList.head? ≠ some '-' := by
      intro hhead
      exact absurd (Decimal.isDigit_of_mem_zeroPadded (List.mem_of_mem_head? hhead)) (by decide)
    have habs : ((n.natAbs : ℤ) : ℚ) = n := by rw [Int.natAbs_of_nonneg (by omega)]
    rw [if_neg hneg, Decimal.value_of_head hhead, unsigned_zeroPadded]
    exact habs

theorem toList_hms (hour minute second : Int) :
    (hms hour minute second).toList
      = (printed2 hour).toList ++ ':' :: ((printed2 minute).toList ++ ':' :: (printed2 second).toList) := by
  simp [hms]

theorem fields_hms (hour minute second : Int) :
    fields (hms hour minute second) = [(hour : ℚ), (minute : ℚ), (second : ℚ)] := by
  have hsplit : ∀ n : Int, (printed2 n).toList.splitOn ':' = [(printed2 n).toList] := fun n =>
    List.splitOn_eq_singleton (colon_not_mem (isNumeral_printed2 n))
  unfold fields
  rw [toList_hms, List.splitOn_append_cons_self, List.splitOn_append_cons_self, hsplit, hsplit, hsplit]
  simp [value_printed2]

/-- A text that fits is not cut. -/
theorem formatHms_of_fits {hour minute second : Int} (hfits : (hms hour minute second).length ≤ 15) :
    formatHms hour minute second = hms hour minute second := by
  rw [← String.length_toList] at hfits
  rw [formatHms, List.take_of_length_le hfits, String.ofList_toList]

/-! ## Times of day -/

structure TimeOfDay where
  hour : ℕ
  minute : ℕ
  second : ℕ
  hour_lt : hour < 24
  minute_lt : minute < 60
  second_lt : second < 60

namespace TimeOfDay

variable (t t' : TimeOfDay)

/-- The seconds since midnight. -/
def seconds : ℕ := 3600 * t.hour + 60 * t.minute + t.second

/-- What the clock publishes. -/
def text : String := formatHms t.hour t.minute t.second

theorem toList_printed2_natCast (n : ℕ) : (printed2 n).toList = (zeroPadded 2 n).toList := by
  rw [toList_printed2, if_neg (by omega)]
  rfl

theorem toList_text :
    t.text.toList = (zeroPadded 2 t.hour).toList
      ++ ':' :: ((zeroPadded 2 t.minute).toList ++ ':' :: (zeroPadded 2 t.second).toList) := by
  have hhour := t.hour_lt
  have hminute := t.minute_lt
  have hsecond := t.second_lt
  have hfits : (hms t.hour t.minute t.second).length ≤ 15 := by
    rw [← String.length_toList, toList_hms]
    simp only [toList_printed2_natCast, List.length_append, List.length_cons,
      Decimal.length_zeroPadded (by omega : t.hour < 10 ^ 2) (by decide),
      Decimal.length_zeroPadded (by omega : t.minute < 10 ^ 2) (by decide),
      Decimal.length_zeroPadded (by omega : t.second < 10 ^ 2) (by decide)]
    decide
  rw [text, formatHms_of_fits hfits, toList_hms]
  simp only [toList_printed2_natCast]

/-- **Texts of times of day are ordered as the times are.** -/
theorem text_lt_iff : t.text < t'.text ↔ t.seconds < t'.seconds := by
  have hhour := t.hour_lt
  have hminute := t.minute_lt
  have hsecond := t.second_lt
  have hhour' := t'.hour_lt
  have hminute' := t'.minute_lt
  have hsecond' := t'.second_lt
  have hlength : ∀ {n m : ℕ}, n < 100 → m < 100 →
      (zeroPadded 2 n).toList.length = (zeroPadded 2 m).toList.length := by
    intro n m hn hm
    rw [Decimal.length_zeroPadded hn (by decide), Decimal.length_zeroPadded hm (by decide)]
  have hlt : ∀ {n m : ℕ}, n < 100 → m < 100 →
      ((zeroPadded 2 n).toList < (zeroPadded 2 m).toList ↔ n < m) := by
    intro n m hn hm
    exact Decimal.zeroPadded_lt_iff (by decide) hn hm
  have heq : ∀ n m : ℕ, (zeroPadded 2 n).toList = (zeroPadded 2 m).toList ↔ n = m := by
    intro n m
    refine ⟨fun heq => ?_, fun heq => by rw [heq]⟩
    rw [← Decimal.ofDigitChars_zeroPadded 2 n, heq, Decimal.ofDigitChars_zeroPadded]
  rw [String.lt_iff_toList_lt, toList_text, toList_text,
    Decimal.append_lt_append_iff (hlength (by omega) (by omega)), List.cons_lt_cons_self,
    Decimal.append_lt_append_iff (hlength (by omega) (by omega)), List.cons_lt_cons_self,
    hlt (by omega) (by omega), hlt (by omega) (by omega), hlt (by omega) (by omega), heq, heq]
  unfold seconds
  omega

end TimeOfDay

example : formatHms 7 5 0 = "07:05:00" ∧ formatHms (-1) 1234567890 59 = "-1:1234567890:5" := by
  decide +kernel

end SensorCurrentTimeLogic

namespace SensorCurrentTime

open SensorCurrentTimeLogic

/-- The time of day, as the controller keeps it. -/
def DateTime.ofTimeOfDay (t : TimeOfDay) : DateTime := ⟨t.hour, t.minute, t.second⟩

/-- **What the clock publishes.** Whatever three integers it is set to, a cycle publishes one text, which
    fits the buffer; a text that is not cut reads back as them; and the texts of times of day are ordered as
    the times are. -/
theorem taskCurrentTime_law :
    ∃ text : DateTime → String,
      (∀ dateTime,
        (taskCurrentTime dateTime).published = [.sendSensorData sensorCurrentTime (text dateTime)] ∧
        (text dateTime).length ≤ 15 ∧
        ((hms dateTime.hour dateTime.minute dateTime.second).length ≤ 15 →
          fields (text dateTime)
            = [(dateTime.hour : ℚ), (dateTime.minute : ℚ), (dateTime.second : ℚ)])) ∧
      ∀ t t' : TimeOfDay,
        text (.ofTimeOfDay t) < text (.ofTimeOfDay t') ↔ t.seconds < t'.seconds := by
  refine ⟨fun dateTime => formatHms dateTime.hour dateTime.minute dateTime.second,
    fun dateTime => ⟨rfl, ?_, fun hfits => ?_⟩, TimeOfDay.text_lt_iff⟩
  · simp only [formatHms]
    rw [← String.length_toList, String.toList_ofList, List.length_take]
    exact Nat.min_le_left _ _
  · simp only [formatHms_of_fits hfits, fields_hms]

end SensorCurrentTime

end CroniotWatering
