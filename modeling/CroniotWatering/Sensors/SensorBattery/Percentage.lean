import CroniotWatering.Sensors.SensorBattery
import Mathlib.Tactic.FieldSimp

set_option autoImplicit false

/-! # The percentage of the battery

The percentage is a function of the mean of the successful readings: affine between 2000 and 2640
millivolts, which are 10.0 and 13.2 V at the battery, and constant outside. -/

namespace CroniotWatering

namespace SensorBatteryLogic

/-! ## The clamp -/

theorem clampPercentage_mem (percentage : ℚ) :
    0 ≤ clampPercentage percentage ∧ clampPercentage percentage ≤ 100 := by
  unfold clampPercentage
  exact ⟨le_min (by norm_num) (le_max_left _ _), min_le_left _ _⟩

theorem clampPercentage_eq_zero_iff (percentage : ℚ) :
    clampPercentage percentage = 0 ↔ percentage ≤ 0 := by
  unfold clampPercentage
  by_cases h : percentage ≤ 0
  · simp [h]
  · have hpos : 0 < percentage := lt_of_not_ge h
    rw [max_eq_right hpos.le]
    refine iff_of_false (fun heq => ?_) h
    have hmin : 0 < min 100 percentage := lt_min (by norm_num) hpos
    rw [heq] at hmin
    exact lt_irrefl 0 hmin

theorem clampPercentage_eq_hundred_iff (percentage : ℚ) :
    clampPercentage percentage = 100 ↔ 100 ≤ percentage := by
  unfold clampPercentage
  rw [min_eq_left_iff, le_max_iff]
  exact ⟨fun h => h.resolve_left (by norm_num), Or.inr⟩

theorem clampPercentage_mono {percentage percentage' : ℚ} (h : percentage ≤ percentage') :
    clampPercentage percentage ≤ clampPercentage percentage' := by
  unfold clampPercentage
  exact min_le_min_left _ (max_le_max_left _ h)

/-- In its range the clamp changes nothing. -/
theorem clampPercentage_of_mem {percentage : ℚ} (hlo : 0 ≤ percentage) (hhi : percentage ≤ 100) :
    clampPercentage percentage = percentage := by
  unfold clampPercentage
  rw [max_eq_right hlo, min_eq_right hhi]

end SensorBatteryLogic

namespace SensorBattery

open SensorBatteryLogic

/-! ## From millivolts to a percentage -/

theorem voltsToPercentage_voltageOfMv (mv : ℚ) :
    voltsToPercentage (voltageOfMv mv) = 5 / 32 * (mv - 2000) := by
  unfold voltsToPercentage voltageOfMv
  norm_num
  ring

/-- The percentage for a mean of `mv` millivolts. -/
def percentageOfMv (mv : ℚ) : ℚ := clampPercentage (5 / 32 * (mv - 2000))

theorem percentageOfMv_eq_zero_iff (mv : ℚ) : percentageOfMv mv = 0 ↔ mv ≤ 2000 := by
  rw [percentageOfMv, clampPercentage_eq_zero_iff]
  constructor <;> intro h <;> linarith

theorem percentageOfMv_eq_hundred_iff (mv : ℚ) : percentageOfMv mv = 100 ↔ 2640 ≤ mv := by
  rw [percentageOfMv, clampPercentage_eq_hundred_iff]
  constructor <;> intro h <;> linarith

theorem percentageOfMv_mono {mv mv' : ℚ} (h : mv ≤ mv') : percentageOfMv mv ≤ percentageOfMv mv' :=
  clampPercentage_mono (by linarith)

theorem percentageOfMv_strictMono {mv mv' : ℚ} (hlo : 2000 ≤ mv) (h : mv < mv') (hhi : mv' ≤ 2640) :
    percentageOfMv mv < percentageOfMv mv' := by
  unfold percentageOfMv
  rw [clampPercentage_of_mem (by linarith) (by linarith),
    clampPercentage_of_mem (by linarith) (by linarith)]
  linarith

/-! ## Two measurements -/

/-- The same reads succeed, and each successful reading of the first is at most the one of the
    second. -/
def AdcValues.LE (adc adc' : AdcValues) : Prop :=
  List.Forall₂ (fun adcValue adcValue' => (0 ≤ adcValue ↔ 0 ≤ adcValue') ∧
    (0 ≤ adcValue → adcValue ≤ adcValue')) adc.values adc'.values

/-- As many readings, and a smaller sum. -/
theorem AdcValues.LE.readings {adc adc' : AdcValues} (h : adc.LE adc') :
    adc.readings.length = adc'.readings.length ∧ adc.readings.sum ≤ adc'.readings.sum := by
  unfold AdcValues.LE at h
  unfold AdcValues.readings
  generalize adc.values = values at h ⊢
  generalize adc'.values = values' at h ⊢
  induction h with
  | nil => exact ⟨rfl, le_refl _⟩
  | @cons adcValue adcValue' _ _ hhead _ ih =>
      obtain ⟨hiff, hle⟩ := hhead
      obtain ⟨hlength, hsum⟩ := ih
      -- the two reads succeed together, so both readings count or neither does
      by_cases hvalue : 0 ≤ adcValue
      · rw [List.filter_cons_of_pos (by simpa using hvalue),
          List.filter_cons_of_pos (by simpa using hiff.1 hvalue)]
        simp only [List.length_cons, List.sum_cons]
        have hvalue' := hle hvalue
        omega
      · have hvalue' : ¬ 0 ≤ adcValue' := fun h => hvalue (hiff.2 h)
        rw [List.filter_cons_of_neg (by simpa using hvalue),
          List.filter_cons_of_neg (by simpa using hvalue')]
        exact ⟨hlength, hsum⟩

theorem AdcValues.LE.meanMv_le {adc adc' : AdcValues} (h : adc.LE adc') : adc.meanMv ≤ adc'.meanMv := by
  obtain ⟨hlength, hsum⟩ := h.readings
  have hcast : (adc.readings.sum : ℚ) ≤ adc'.readings.sum := by exact_mod_cast hsum
  unfold AdcValues.meanMv
  rw [hlength]
  gcongr

/-! ## What a cycle reports -/

/-- The percentages a cycle reports. -/
def percentages (cycle : SensorCycle) : List ℚ :=
  cycle.published.filterMap fun
    | .reportSample uid value => if uid = sensorBatteryPercentage then some value else none
    | .sendSensorData _ _ => none

/-- With a successful reading, a cycle reports one percentage, that of the mean. -/
theorem percentages_taskBattery (current : AdcValues) {voltage : AdcValues}
    (h : voltage.readings ≠ []) :
    percentages (taskBattery current voltage) = [percentageOfMv voltage.meanMv] := by
  have hcount : voltage.readings.length ≠ 0 := by simpa using h
  have hvoltage : getBatteryVoltage voltage = voltageOfMv voltage.meanMv := by
    rw [getBatteryVoltage_of_accumulate voltage.accumulate_eq, if_neg hcount]
    rfl
  rw [percentageOfMv, ← voltsToPercentage_voltageOfMv, ← hvoltage]
  rfl

/-- **The battery level.** A measurement with a successful reading is reported as one percentage, in
    range, 0 exactly up to 2000 mV and 100 exactly from 2640 mV; and larger readings at the same places
    never give a smaller percentage, but a larger one where the mean grows within that range. -/
theorem percentage_law {current voltage : AdcValues} (h : voltage.readings ≠ []) :
    ∃ percentage, percentages (taskBattery current voltage) = [percentage] ∧
      (0 ≤ percentage ∧ percentage ≤ 100) ∧ (percentage = 0 ↔ voltage.meanMv ≤ 2000) ∧
      (percentage = 100 ↔ 2640 ≤ voltage.meanMv) ∧
      ∀ current' voltage' : AdcValues, voltage.LE voltage' →
        ∃ percentage', percentages (taskBattery current' voltage') = [percentage'] ∧
          percentage ≤ percentage' ∧
          (2000 ≤ voltage.meanMv ∧ voltage.meanMv ≤ 2640 → 2000 ≤ voltage'.meanMv ∧
            voltage'.meanMv ≤ 2640 → voltage.meanMv ≠ voltage'.meanMv → percentage < percentage') := by
  refine ⟨percentageOfMv voltage.meanMv, percentages_taskBattery current h, clampPercentage_mem _,
    percentageOfMv_eq_zero_iff _, percentageOfMv_eq_hundred_iff _, ?_⟩
  intro current' voltage' hle
  have hreadings : voltage'.readings ≠ [] := by
    intro hnil
    have hlength := hle.readings.1
    rw [hnil] at hlength
    exact h (List.length_eq_zero_iff.1 hlength)
  refine ⟨percentageOfMv voltage'.meanMv, percentages_taskBattery current' hreadings,
    percentageOfMv_mono hle.meanMv_le, ?_⟩
  intro hrange hrange' hne
  exact percentageOfMv_strictMono hrange.1 (lt_of_le_of_ne hle.meanMv_le hne) hrange'.2

/-- A battery at 12 V, every second read of which fails. -/
theorem percentage_law_twelve :
    ∃ percentage, percentages (taskBattery ⟨List.replicate 20 2516, rfl⟩
        ⟨List.replicate 10 2400 ++ List.replicate 10 (-1), rfl⟩) = [percentage] ∧
      0 ≤ percentage ∧ percentage ≤ 100 := by
  obtain ⟨percentage, hreported, hrange, -⟩ := @percentage_law ⟨List.replicate 20 2516, rfl⟩
    ⟨List.replicate 10 2400 ++ List.replicate 10 (-1), rfl⟩ (by decide)
  exact ⟨percentage, hreported, hrange⟩

end SensorBattery

end CroniotWatering
