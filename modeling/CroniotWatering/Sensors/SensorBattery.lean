import CroniotWatering.Library.Fixed
import CroniotWatering.Sensors.ADS1115Controller
import CroniotWatering.Sensors.Sensor
import Mathlib.Data.List.DropRight

set_option autoImplicit false

/-! # The battery

`Sensors/Battery/SensorBatteryLogic.cpp` and `Sensors/Battery/SensorBattery.cpp`. A cycle measures both
channels, and publishes the charge as a percentage and the power as a text. The voltage text that the
source formats and never sends is left out. -/

namespace CroniotWatering

namespace SensorBatteryLogic

/-- Linear from 10.0 V at 0 % to 13.2 V at 100 %; not clamped. -/
def voltsToPercentage (voltage : ℚ) : ℚ :=
  let maxVoltage : ℚ := 13.2
  let minVoltage : ℚ := 10.0
  let slope := 100.0 / (maxVoltage - minVoltage)
  slope * (voltage - minVoltage)

def clampPercentage (percentage : ℚ) : ℚ := min 100 (max 0 percentage)

/-- Erase the zeros at the end, and then a point at the end. -/
def trimDecimals (s : String) : String :=
  let erased := s.toList.rdropWhile (· = '0')
  String.ofList (if erased.getLast? = some '.' then erased.dropLast else erased)

def formatMax2Decimals (value : ℚ) : String := trimDecimals (toFixed 2 value)

example : formatMax2Decimals (31 / 10) = "3.1" ∧ formatMax2Decimals 100 = "100" := by decide +kernel

end SensorBatteryLogic

namespace SensorBattery

open SensorBatteryLogic ADS1115Controller

def mvToV : ℚ := 0.001
def acs712ZeroCurrentVoltage : ℚ := 2.516
def acs712SensitivityVPerA : ℚ := 0.100

/-- What `readValueBlocking` returned in one measurement: `SENSOR_MESAUREMENT_SAMPLES` values. -/
structure AdcValues where
  values : List Int
  length_eq : values.length = 20

def AdcValues.accumulate (adc : AdcValues) : Accumulator :=
  adc.values.foldl Accumulator.addValue ⟨0, 0⟩

def getBatteryCurrent (adc : AdcValues) : ℚ :=
  let acc := adc.accumulate
  if acc.sampleCount = 0 then 0
  else
    let avgMv : ℚ := acc.adValue / acc.sampleCount
    let voltage := avgMv * mvToV
    (voltage - acs712ZeroCurrentVoltage) / acs712SensitivityVPerA

def getBatteryVoltage (adc : AdcValues) : ℚ :=
  let acc := adc.accumulate
  if acc.sampleCount = 0 then 0
  else
    let avgMv : ℚ := acc.adValue / acc.sampleCount
    let measuredVoltage := avgMv * mvToV
    measuredVoltage / 5.0 * 25.0

/-- One cycle of `taskBattery`, on the values of its two channels. -/
def taskBattery (current voltage : AdcValues) : SensorCycle :=
  let batteryCurrent := getBatteryCurrent current
  let batteryVoltage := getBatteryVoltage voltage
  let voltageBatteryPercentage := clampPercentage (voltsToPercentage batteryVoltage)
  let batteryPower := batteryVoltage * |batteryCurrent|
  { published :=
      [.reportSample sensorBatteryPercentage voltageBatteryPercentage,
        .sendSensorData sensorBatteryPowerConsumption (formatMax2Decimals batteryPower)]
    delayMillis := 3000 }

/-! ## The loop in closed form -/

/-- The readings that count: a failed read is negative. -/
def AdcValues.readings (adc : AdcValues) : List Int := adc.values.filter fun adcValue => 0 ≤ adcValue

/-- Their mean, in millivolts. -/
def AdcValues.meanMv (adc : AdcValues) : ℚ := (adc.readings.sum : ℚ) / adc.readings.length

/-- The loop adds up and counts the values that are not negative. -/
theorem foldl_addValue (values : List Int) (acc : Accumulator) :
    values.foldl Accumulator.addValue acc
      = ⟨acc.adValue + (values.filter fun adcValue => 0 ≤ adcValue).sum,
          acc.sampleCount + (values.filter fun adcValue => 0 ≤ adcValue).length⟩ := by
  rw [← foldl_add, List.foldl_filter]
  simp only [decide_eq_true_eq]
  rfl

theorem AdcValues.accumulate_eq (adc : AdcValues) :
    adc.accumulate = ⟨adc.readings.sum, adc.readings.length⟩ := by
  have hfold := foldl_addValue adc.values ⟨0, 0⟩
  simp only [zero_add] at hfold
  exact hfold

theorem AdcValues.meanMv_nonneg (adc : AdcValues) : 0 ≤ adc.meanMv := by
  have hsum : 0 ≤ adc.readings.sum := List.sum_nonneg fun adcValue hvalue => by
    simpa using (List.mem_filter.1 hvalue).2
  have hcast : (0 : ℚ) ≤ adc.readings.sum := by exact_mod_cast hsum
  unfold AdcValues.meanMv
  positivity

/-- Voltage of the battery, in volts, for a mean of `mv` millivolts behind the 5:1 divider. -/
def voltageOfMv (mv : ℚ) : ℚ := 5 * mv / 1000

/-- Current through the sensor, in amperes, for a mean of `mv` millivolts. -/
def currentOfMv (mv : ℚ) : ℚ := (mv / 1000 - 2.516) / 0.1

/-- What the two functions return, by the sum and the number of the readings that count. -/
theorem getBatteryVoltage_of_accumulate {adc : AdcValues} {sum : Int} {count : ℕ}
    (h : adc.accumulate = ⟨sum, count⟩) :
    getBatteryVoltage adc = if count = 0 then 0 else voltageOfMv (sum / count) := by
  simp only [getBatteryVoltage, h]
  split
  · rfl
  · simp only [voltageOfMv, mvToV]
    norm_num
    ring

theorem getBatteryVoltage_nonneg (adc : AdcValues) : 0 ≤ getBatteryVoltage adc := by
  rw [getBatteryVoltage_of_accumulate adc.accumulate_eq]
  split
  · exact le_refl 0
  · have hmean := adc.meanMv_nonneg
    unfold AdcValues.meanMv at hmean
    unfold voltageOfMv
    positivity

theorem getBatteryCurrent_of_accumulate {adc : AdcValues} {sum : Int} {count : ℕ}
    (h : adc.accumulate = ⟨sum, count⟩) :
    getBatteryCurrent adc = if count = 0 then 0 else currentOfMv (sum / count) := by
  simp only [getBatteryCurrent, h]
  split
  · rfl
  · simp only [currentOfMv, mvToV, acs712ZeroCurrentVoltage, acs712SensitivityVPerA]
    norm_num
    ring

end SensorBattery

end CroniotWatering
