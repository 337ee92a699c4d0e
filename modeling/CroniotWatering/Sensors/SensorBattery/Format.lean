import CroniotWatering.Library.FixedText
import CroniotWatering.Sensors.SensorBattery

set_option autoImplicit false

/-! # The text of a value

`formatMax2Decimals` erases from behind the last character of the text that is no zero. The point stops
the erasure in front of the digits, so that only places get lost, and of those only the ones that do
not count. -/

namespace CroniotWatering

namespace SensorBatteryLogic

open Decimal (FixedText)
open SensorBattery

theorem toList_trimDecimals (s : String) : (trimDecimals s).toList = Decimal.trim s.toList :=
  String.toList_ofList

theorem trimDecimals_toString {width : ℕ} (output : FixedText width) :
    trimDecimals output.toString = String.ofList (Decimal.trim output.chars) := by
  rw [← String.toList_inj, toList_trimDecimals, FixedText.toList_toString, String.toList_ofList]

/-- The trimmed text of a stream's output: what is left of it is the same number with the same integer
    part, and has nothing at its end that could go. -/
structure Canonical (output : FixedText 2) (trimmed : String) : Prop where
  erased : trimmed.toList <+: output.toString.toList
  value : Decimal.value trimmed = Decimal.value output.toString
  integerPart : trimmed.toList.takeWhile (· ≠ '.') = output.integerPart
  noPoint : trimmed.toList.getLast? ≠ some '.'
  noZero : '.' ∈ trimmed.toList → trimmed.toList.getLast? ≠ some '0'

theorem canonical_trimDecimals (output : FixedText 2) :
    Canonical output (trimDecimals output.toString) := by
  obtain ⟨c, hlast, hdigit, hzero⟩ := output.getLast?_trim
  have hlist : (trimDecimals output.toString).toList = Decimal.trim output.chars := by
    rw [toList_trimDecimals, FixedText.toList_toString]
  refine ⟨?_, ?_, ?_, ?_, ?_⟩
  · rw [hlist, FixedText.toList_toString]
    exact Decimal.trim_prefix output.chars
  · rw [trimDecimals_toString]
    exact output.value_trim
  · rw [hlist]
    exact output.takeWhile_trim
  · -- the last character is a digit
    rw [hlist, hlast, Ne, Option.some.injEq]
    rintro rfl
    exact absurd hdigit (by decide)
  · rw [hlist, hlast, Ne, Option.some.injEq]
    exact hzero

example : trimDecimals "100.00" = "100" ∧ trimDecimals "-0.00" = "-0" := by decide +kernel

/-- What the stream prints before it is trimmed. -/
def streamOutput (value : ℚ) : FixedText 2 := FixedText.ofRat (by decide) value

theorem toString_streamOutput (value : ℚ) : (streamOutput value).toString = toFixed 2 value :=
  FixedText.toString_ofRat (by decide) value

/-- The text of a value is what is left of the stream's. -/
theorem canonical_formatMax2Decimals (value : ℚ) :
    Canonical (streamOutput value) (formatMax2Decimals value) := by
  have hcanonical := canonical_trimDecimals (streamOutput value)
  rwa [toString_streamOutput] at hcanonical

/-! ## Values that are not negative -/

/-- The text for a number that is not negative denotes it rounded to hundredths. -/
theorem value_formatMax2Decimals {q : ℚ} (hq : 0 ≤ q) :
    Decimal.value (formatMax2Decimals q) = (roundHalfEven (q * 10 ^ 2)).toNat / 10 ^ 2 := by
  have hvalue := (canonical_formatMax2Decimals q).value
  rwa [toString_streamOutput, Decimal.value_toFixed hq (by decide)] at hvalue

theorem toFixed_congr {places : ℕ} {q q' : ℚ} (hq : 0 ≤ q) (hq' : 0 ≤ q')
    (h : roundHalfEven (q * 10 ^ places) = roundHalfEven (q' * 10 ^ places)) :
    toFixed places q = toFixed places q' := by
  simp only [toFixed, abs_of_nonneg hq, abs_of_nonneg hq', h, if_neg (not_lt.2 hq),
    if_neg (not_lt.2 hq')]

theorem formatMax2Decimals_eq_iff {q q' : ℚ} (hq : 0 ≤ q) (hq' : 0 ≤ q') :
    formatMax2Decimals q = formatMax2Decimals q'
      ↔ roundHalfEven (q * 10 ^ 2) = roundHalfEven (q' * 10 ^ 2) := by
  constructor
  · intro htext
    have hvalue := congrArg Decimal.value htext
    rw [value_formatMax2Decimals hq, value_formatMax2Decimals hq',
      div_left_inj' (by norm_num)] at hvalue
    have hround := roundHalfEven_nonneg (mul_nonneg hq (by norm_num : (0 : ℚ) ≤ 10 ^ 2))
    have hround' := roundHalfEven_nonneg (mul_nonneg hq' (by norm_num : (0 : ℚ) ≤ 10 ^ 2))
    have hnat : (roundHalfEven (q * 10 ^ 2)).toNat = (roundHalfEven (q' * 10 ^ 2)).toNat := by
      exact_mod_cast hvalue
    omega
  · intro hround
    exact congrArg trimDecimals (toFixed_congr hq hq' hround)

/-- The power is printed from a value that is not negative. -/
theorem exists_power_nonneg (current voltage : AdcValues) :
    ∃ value, 0 ≤ value ∧
      .sendSensorData sensorBatteryPowerConsumption (formatMax2Decimals value)
        ∈ (taskBattery current voltage).published := by
  refine ⟨getBatteryVoltage voltage * |getBatteryCurrent current|, ?_, ?_⟩
  · exact mul_nonneg (getBatteryVoltage_nonneg voltage) (abs_nonneg _)
  · exact List.mem_cons_of_mem _ List.mem_cons_self

/-- **The text of a value** is the canonical one. Any text with two places is trimmed to a canonical
    text for the same number; the stream prints texts with two places, and `formatMax2Decimals` returns
    the canonical text for what it prints; and of the values that are not negative, to which the
    battery's belong, two have the same text exactly if they round to the same number of hundredths. -/
theorem formatMax2Decimals_law :
    (∀ output : FixedText 2, Canonical output (trimDecimals output.toString)) ∧
    (∀ value, (streamOutput value).toString = toFixed 2 value ∧
      Canonical (streamOutput value) (formatMax2Decimals value)) ∧
    (∀ current voltage : AdcValues, ∃ value, 0 ≤ value ∧
      .sendSensorData sensorBatteryPowerConsumption (formatMax2Decimals value)
        ∈ (taskBattery current voltage).published) ∧
    ∀ value value' : ℚ, 0 ≤ value → 0 ≤ value' →
      (formatMax2Decimals value = formatMax2Decimals value'
        ↔ roundHalfEven (value * 10 ^ 2) = roundHalfEven (value' * 10 ^ 2)) :=
  ⟨canonical_trimDecimals,
    fun value => ⟨toString_streamOutput value, canonical_formatMax2Decimals value⟩,
    exists_power_nonneg, fun _ _ => formatMax2Decimals_eq_iff⟩

end SensorBatteryLogic

end CroniotWatering
