import Mathlib.Algebra.Order.BigOperators.Group.List
import Mathlib.Data.Rat.Floor
import Mathlib.Algebra.Order.Floor.Ring
import Mathlib.Tactic.Linarith
import Mathlib.Tactic.NormNum

set_option autoImplicit false

/-! # The analog-to-digital converter

`Sensors/ADS1115Controller.cpp`, over the ADS1115 of `components/ads1x15` at its default gain. A
conversion either fails on the bus or yields a 16-bit code, which the driver converts to millivolts.
Voltages are exact rationals where the source has a `float`. -/

namespace CroniotWatering

namespace Ads1x15

inductive Gain where
  | twothirds
  | one
  | two
  | four
  | eight
  | sixteen

/-- A conversion result, an `int16_t`. -/
structure RawCode where
  val : Int
  ge : -32768 ≤ val
  le : val ≤ 32767

/-- `fsRange`, in millivolts. -/
def fsRange : Gain → ℚ
  | .twothirds => 6144
  | .one => 4096
  | .two => 2048
  | .four => 1024
  | .eight => 512
  | .sixteen => 256

/-- `raw_to_mv`, with the chip's `bit_shift_`. -/
def rawToMv (gain : Gain) (bitShift : ℕ) (raw : RawCode) : ℚ :=
  raw.val * (fsRange gain / (32768 >>> bitShift : ℕ))

/-- The same for the 16-bit chip at the default gain. -/
def defaultMv (raw : RawCode) : ℚ := rawToMv .twothirds 0 raw

theorem defaultMv_eq (raw : RawCode) : defaultMv raw = raw.val * (6144 / 32768) := by
  simp [defaultMv, rawToMv, fsRange]

/-- What one conversion comes to: a code, or an I2C error. -/
abbrev Outcome := Option RawCode

/-- `sample_mv`; `none` where the source sets the error code. -/
def sampleMv (outcome : Outcome) : Option ℚ := outcome.map defaultMv

end Ads1x15

namespace ADS1115Controller

/-- `static_cast<int>`: toward zero. -/
def truncate (q : ℚ) : Int := if 0 ≤ q then ⌊q⌋ else ⌈q⌉

/-- The voltage on a channel in whole millivolts, or -1 on an I2C error. -/
def readValueBlocking (outcome : Ads1x15.Outcome) : Int :=
  match Ads1x15.sampleMv outcome with
  | none => -1
  | some valueMv => truncate valueMv

/-- The converter's full scale is below 6144 mV. -/
theorem readValueBlocking_le (outcome : Ads1x15.Outcome) : readValueBlocking outcome ≤ 6143 := by
  cases outcome with
  | none => decide
  | some raw =>
      show truncate (Ads1x15.defaultMv raw) ≤ 6143
      have hraw : (raw.val : ℚ) ≤ 32767 := by exact_mod_cast raw.le
      have hmv : Ads1x15.defaultMv raw < ((6144 : ℤ) : ℚ) := by
        rw [Ads1x15.defaultMv_eq]
        push_cast
        linarith
      unfold truncate
      split
      · have h := Int.floor_lt.2 hmv
        omega
      · next hneg =>
          have h : ⌈Ads1x15.defaultMv raw⌉ ≤ 0 := Int.ceil_le.2 (by push_cast; linarith)
          omega

end ADS1115Controller

/-! ## The averaging loop

The loop the sensors share: add up the readings that are not negative, and count them. -/

open ADS1115Controller

/-- The outcomes of one measurement: `SENSOR_MEASUREMENT_SAMPLES` conversions. -/
structure Burst where
  outcomes : List Ads1x15.Outcome
  length_eq : outcomes.length = 20

/-- The loop's variables. -/
structure Accumulator where
  adValue : Int
  sampleCount : ℕ

/-- One iteration of the loop, by what `readValueBlocking` returns. -/
def Accumulator.addValue (acc : Accumulator) (value : Int) : Accumulator :=
  if 0 ≤ value then ⟨acc.adValue + value, acc.sampleCount + 1⟩ else acc

/-- The average of what has been added; `none` where no sample counted. -/
def Accumulator.average (acc : Accumulator) : Option ℚ :=
  if acc.sampleCount = 0 then none else some (acc.adValue / acc.sampleCount)

/-- One iteration, by what the conversion comes to. -/
def Accumulator.sample (acc : Accumulator) (outcome : Ads1x15.Outcome) : Accumulator :=
  acc.addValue (readValueBlocking outcome)

def accumulate (outcomes : List Ads1x15.Outcome) : Accumulator :=
  outcomes.foldl Accumulator.sample ⟨0, 0⟩

/-- The average the source computes. -/
def Burst.averageAdc (burst : Burst) : Option ℚ := (accumulate burst.outcomes).average

/-- The reading of a conversion that succeeded. -/
def successfulReading (outcome : Ads1x15.Outcome) : Option Int :=
  (Ads1x15.sampleMv outcome).map truncate

/-- The readings of the conversions that succeeded. -/
def Burst.readings (burst : Burst) : List Int := burst.outcomes.filterMap successfulReading

/-- Their mean, in millivolts. -/
def Burst.meanMv (burst : Burst) : ℚ := (burst.readings.sum : ℚ) / burst.readings.length

/-- Some conversion succeeded, and none read a negative voltage. -/
structure Burst.Usable (burst : Burst) : Prop where
  readings_ne_nil : burst.readings ≠ []
  nonneg : ∀ value ∈ burst.readings, 0 ≤ value

/-- The loop's variables after a value that counts. -/
def Accumulator.add (acc : Accumulator) (value : Int) : Accumulator :=
  ⟨acc.adValue + value, acc.sampleCount + 1⟩

theorem foldl_add (values : List Int) (acc : Accumulator) :
    values.foldl Accumulator.add acc
      = ⟨acc.adValue + values.sum, acc.sampleCount + values.length⟩ := by
  induction values generalizing acc with
  | nil => simp
  | cons value values ih =>
      rw [List.foldl_cons, ih, List.sum_cons, List.length_cons]
      simp only [Accumulator.add, Accumulator.mk.injEq]
      omega

theorem sample_of_failed {outcome : Ads1x15.Outcome} (h : successfulReading outcome = none)
    (acc : Accumulator) : acc.sample outcome = acc := by
  cases outcome with
  | none => rfl
  | some raw => cases h

theorem sample_of_successful {outcome : Ads1x15.Outcome} {value : Int}
    (h : successfulReading outcome = some value) (hvalue : 0 ≤ value) (acc : Accumulator) :
    acc.sample outcome = acc.add value := by
  cases outcome with
  | none => cases h
  | some raw =>
      cases h
      exact if_pos hvalue

/-- Where no reading is negative, the loop adds up and counts all of them. -/
theorem foldl_sample (outcomes : List Ads1x15.Outcome) (acc : Accumulator)
    (hnonneg : ∀ value ∈ outcomes.filterMap successfulReading, 0 ≤ value) :
    outcomes.foldl Accumulator.sample acc
      = ⟨acc.adValue + (outcomes.filterMap successfulReading).sum,
          acc.sampleCount + (outcomes.filterMap successfulReading).length⟩ := by
  rw [← foldl_add, List.foldl_filterMap]
  refine List.foldl_ext _ _ _ fun acc outcome houtcome => ?_
  cases hread : successfulReading outcome with
  | none => exact sample_of_failed hread acc
  | some value =>
      have hvalue := hnonneg value (List.mem_filterMap.2 ⟨outcome, houtcome, hread⟩)
      exact sample_of_successful hread hvalue acc

theorem accumulate_of_nonneg {burst : Burst} (h : ∀ value ∈ burst.readings, 0 ≤ value) :
    accumulate burst.outcomes = ⟨burst.readings.sum, burst.readings.length⟩ := by
  have hfold := foldl_sample burst.outcomes ⟨0, 0⟩ h
  simp only [Int.zero_add, Nat.zero_add] at hfold
  exact hfold

/-- The readings are those of the codes. -/
theorem Burst.mem_readings {burst : Burst} {value : Int} :
    value ∈ burst.readings
      ↔ ∃ raw, some raw ∈ burst.outcomes ∧ readValueBlocking (some raw) = value := by
  unfold Burst.readings
  rw [List.mem_filterMap]
  constructor
  · rintro ⟨outcome, houtcome, hsome⟩
    cases outcome with
    | none => cases hsome
    | some raw => exact ⟨raw, houtcome, Option.some.inj hsome⟩
  · rintro ⟨raw, hraw, rfl⟩
    exact ⟨some raw, hraw, rfl⟩

/-- A channel that reads the same code throughout. -/
def Burst.steady (raw : Ads1x15.RawCode) : Burst where
  outcomes := List.replicate 20 (some raw)
  length_eq := List.length_replicate

theorem Burst.readings_steady (raw : Ads1x15.RawCode) :
    (Burst.steady raw).readings = List.replicate 20 (truncate (Ads1x15.defaultMv raw)) := rfl

theorem Burst.meanMv_steady {raw : Ads1x15.RawCode} {mv : Int}
    (h : truncate (Ads1x15.defaultMv raw) = mv) : (Burst.steady raw).meanMv = mv := by
  rw [meanMv, readings_steady, List.sum_replicate, List.length_replicate, h]
  push_cast
  norm_num

theorem Burst.usable_steady {raw : Ads1x15.RawCode} {mv : Int}
    (h : truncate (Ads1x15.defaultMv raw) = mv) (hmv : 0 ≤ mv) : (Burst.steady raw).Usable where
  readings_ne_nil := by simp [readings_steady]
  nonneg := by
    intro value hvalue
    rw [readings_steady, h] at hvalue
    rwa [List.eq_of_mem_replicate hvalue]

/-- On a usable burst the code's average is the mean of the successful readings. -/
theorem Burst.Usable.averageAdc_eq {burst : Burst} (h : burst.Usable) :
    burst.averageAdc = some burst.meanMv := by
  have hacc := accumulate_of_nonneg h.nonneg
  have hcount : burst.readings.length ≠ 0 := by
    simpa using h.readings_ne_nil
  simp only [averageAdc, Accumulator.average, hacc, if_neg hcount, meanMv]

/-- The mean stays below full scale. -/
theorem Burst.Usable.meanMv_le {burst : Burst} (h : burst.Usable) : burst.meanMv ≤ 6143 := by
  have hle : ∀ value ∈ burst.readings, value ≤ 6143 := by
    intro value hvalue
    obtain ⟨raw, -, rfl⟩ := Burst.mem_readings.1 hvalue
    exact readValueBlocking_le (some raw)
  have hsum : burst.readings.sum ≤ burst.readings.length * 6143 := by
    simpa using List.sum_le_card_nsmul burst.readings 6143 hle
  have hpos : (0 : ℚ) < burst.readings.length := by
    have := List.length_pos_of_ne_nil h.readings_ne_nil
    exact_mod_cast this
  rw [meanMv, div_le_iff₀ hpos, mul_comm]
  exact_mod_cast hsum

end CroniotWatering
