import CroniotWatering.Library.Fixed
import CroniotWatering.Sensors.ADS1115Controller

set_option autoImplicit false

/-! # The solar panel

`Sensors/SensorSolarPanelLogic.cpp` and `Sensors/SensorSolarPanel.cpp`. The conversions expect raw
codes of 187.5 microvolts each, but the average they are given is in millivolts already. -/

namespace CroniotWatering

namespace SensorSolarPanelLogic

def adcToCurrent (averageAdcCounts : ℚ) : ℚ :=
  let zeroCurrentVoltage : ℚ := 2.5
  let sensitivity : ℚ := 0.1
  let voltage := averageAdcCounts * 0.0001875
  (voltage - zeroCurrentVoltage) / sensitivity

def adcToVoltage (averageAdcCounts : ℚ) : ℚ :=
  let measuredVoltage := averageAdcCounts * 0.0001875
  measuredVoltage / 5.0 * 25.0

def shouldReportPower (voltage current : ℚ) : Prop := voltage > 14.0 ∨ current ≥ 0.7

instance (voltage current : ℚ) : Decidable (shouldReportPower voltage current) :=
  inferInstanceAs (Decidable (_ ∨ _))

end SensorSolarPanelLogic

namespace SensorSolarPanel

open SensorSolarPanelLogic

def sensorSolarPower : Int := 43

/-- By the average of its loop; `none` where no sample counted. -/
def getSolarCurrent (averageAdc : Option ℚ) : ℚ :=
  match averageAdc with
  | none => 0
  | some averageAdc => adcToCurrent averageAdc

def getSolarVoltage (averageAdc : Option ℚ) : ℚ :=
  match averageAdc with
  | none => 0
  | some averageAdc => adcToVoltage averageAdc

/-- What one cycle of the task does: the value it sends, and how long it then sleeps. -/
structure Cycle where
  sensorUid : Int
  solarPowerStr : String
  delayMillis : Int

/-- One cycle of `taskSolar`, on the averages of its two channels. -/
def cycleOf (current voltage : Option ℚ) : Cycle :=
  let solarCurrent := getSolarCurrent current
  let solarVoltage := getSolarVoltage voltage
  let solarPower := solarVoltage * solarCurrent
  let solarPowerStr :=
    if shouldReportPower solarVoltage solarCurrent then toFixed 6 solarPower else "0"
  { sensorUid := sensorSolarPower
    solarPowerStr := solarPowerStr
    delayMillis := if solarPowerStr = "0" then 5000 else 1000 }

/-- One cycle of `taskSolar`, on the bursts of its two channels. -/
def taskSolar (currentBurst voltageBurst : Burst) : Cycle :=
  cycleOf currentBurst.averageAdc voltageBurst.averageAdc

/-! ## What the panel delivers

The same readings with the unit the driver gives them. -/

/-- Current through the sensor, in amperes, for a mean of `mv` millivolts. -/
def currentOfMv (mv : ℚ) : ℚ := (mv / 1000 - 2.5) / 0.1

/-- Voltage of the panel, in volts, behind a 5:1 divider. -/
def voltageOfMv (mv : ℚ) : ℚ := 5 * mv / 1000

/-- The panel delivers too little to report. -/
def Idle (currentMv voltageMv : ℚ) : Prop := voltageOfMv voltageMv ≤ 14 ∧ currentOfMv currentMv < 0.7

/-- What a cycle sends is the panel's power, with `"0"` for an idle panel. -/
def ReportsPower (currentBurst voltageBurst : Burst) : Prop :=
  ((taskSolar currentBurst voltageBurst).solarPowerStr = "0"
    ↔ Idle currentBurst.meanMv voltageBurst.meanMv) ∧
  (¬ Idle currentBurst.meanMv voltageBurst.meanMv →
    (taskSolar currentBurst voltageBurst).solarPowerStr
      = toFixed 6 (voltageOfMv voltageBurst.meanMv * currentOfMv currentBurst.meanMv))

/-! ## What the code sends -/

/-- The text `"0"` is sent only for power below the threshold: a power always has its six places. -/
theorem solarPowerStr_eq_zero_iff (currentBurst voltageBurst : Burst) :
    (taskSolar currentBurst voltageBurst).solarPowerStr = "0"
      ↔ ¬ shouldReportPower (getSolarVoltage voltageBurst.averageAdc)
        (getSolarCurrent currentBurst.averageAdc) := by
  simp only [taskSolar, cycleOf]
  split
  · next h => exact iff_of_false (toFixed_ne (by decide)) (not_not_intro h)
  · next h => exact iff_of_true rfl h

/-- Taken for raw codes, readings below full scale are never worth reporting. -/
theorem not_shouldReportPower {currentBurst voltageBurst : Burst} (hcurrent : currentBurst.Usable)
    (hvoltage : voltageBurst.Usable) :
    ¬ shouldReportPower (getSolarVoltage voltageBurst.averageAdc)
        (getSolarCurrent currentBurst.averageAdc) := by
  have hc := hcurrent.meanMv_le
  have hv := hvoltage.meanMv_le
  simp only [getSolarVoltage, getSolarCurrent, hcurrent.averageAdc_eq, hvoltage.averageAdc_eq,
    adcToVoltage, adcToCurrent, shouldReportPower]
  rintro (h | h)
  · norm_num at h
    linarith
  · norm_num at h
    linarith

theorem taskSolar_sends_zero {currentBurst voltageBurst : Burst} (hcurrent : currentBurst.Usable)
    (hvoltage : voltageBurst.Usable) :
    (taskSolar currentBurst voltageBurst).solarPowerStr = "0" :=
  (solarPowerStr_eq_zero_iff _ _).2 (not_shouldReportPower hcurrent hvoltage)

theorem idle_iff (currentMv voltageMv : ℚ) :
    Idle currentMv voltageMv ↔ voltageMv ≤ 2800 ∧ currentMv < 2570 := by
  unfold Idle voltageOfMv currentOfMv
  constructor
  · rintro ⟨hv, hc⟩
    norm_num at hc
    constructor <;> linarith
  · rintro ⟨hv, hc⟩
    norm_num
    constructor <;> linarith

/-- **The solar pipeline.** A cycle sends the panel's power exactly when there is none to report:
    the panel at no more than 14 V, which is 2800 mV at the pin, and below 0.7 A, which is 2570 mV. -/
theorem reportsPower_iff {currentBurst voltageBurst : Burst} (hcurrent : currentBurst.Usable)
    (hvoltage : voltageBurst.Usable) :
    ReportsPower currentBurst voltageBurst
      ↔ voltageBurst.meanMv ≤ 2800 ∧ currentBurst.meanMv < 2570 := by
  have hzero := taskSolar_sends_zero hcurrent hvoltage
  rw [← idle_iff]
  refine ⟨fun hreports => hreports.1.1 hzero, fun hidle => ?_⟩
  exact ⟨iff_of_true hzero hidle, fun hnot => absurd hidle hnot⟩

/-- A panel at 10 V that delivers no current. -/
theorem reportsPower_dark :
    ReportsPower (Burst.steady ⟨13334, by decide, by decide⟩)
      (Burst.steady ⟨10667, by decide, by decide⟩) := by
  have hcurrent : ADS1115Controller.truncate (Ads1x15.defaultMv ⟨13334, by decide, by decide⟩)
      = 2500 := by decide +kernel
  have hvoltage : ADS1115Controller.truncate (Ads1x15.defaultMv ⟨10667, by decide, by decide⟩)
      = 2000 := by decide +kernel
  have hc := Burst.usable_steady hcurrent (by norm_num)
  have hv := Burst.usable_steady hvoltage (by norm_num)
  refine (reportsPower_iff hc hv).2 ?_
  rw [Burst.meanMv_steady hcurrent, Burst.meanMv_steady hvoltage]
  norm_num

/-- A panel at 15 V that delivers 1 A is reported as idle. -/
theorem not_reportsPower_sunny :
    ¬ ∀ currentBurst voltageBurst : Burst, currentBurst.Usable → voltageBurst.Usable →
      ReportsPower currentBurst voltageBurst := by
  intro h
  have hcurrent : ADS1115Controller.truncate (Ads1x15.defaultMv ⟨13867, by decide, by decide⟩)
      = 2600 := by decide +kernel
  have hvoltage : ADS1115Controller.truncate (Ads1x15.defaultMv ⟨16000, by decide, by decide⟩)
      = 3000 := by decide +kernel
  have hc := Burst.usable_steady hcurrent (by norm_num)
  have hv := Burst.usable_steady hvoltage (by norm_num)
  have hidle := (h _ _ hc hv).1.1 (taskSolar_sends_zero hc hv)
  rw [idle_iff, Burst.meanMv_steady hcurrent, Burst.meanMv_steady hvoltage] at hidle
  norm_num at hidle

/-! ## Whatever is measured

The outcomes need not be usable for that. -/

/-- The loop leaves negative readings out, so its sum is neither negative nor above full scale. -/
theorem accumulate_bounds (outcomes : List Ads1x15.Outcome) :
    0 ≤ (accumulate outcomes).adValue ∧
      (accumulate outcomes).adValue ≤ 6143 * (accumulate outcomes).sampleCount := by
  unfold accumulate
  refine List.foldlRecOn (motive := fun acc : Accumulator =>
    0 ≤ acc.adValue ∧ acc.adValue ≤ 6143 * acc.sampleCount) outcomes _ ⟨le_refl 0, le_refl 0⟩ ?_
  rintro acc ⟨hlo, hhi⟩ outcome -
  have hle := ADS1115Controller.readValueBlocking_le outcome
  unfold Accumulator.sample Accumulator.addValue
  split
  · next hvalue =>
      refine ⟨Int.add_nonneg hlo hvalue, ?_⟩
      push_cast
      omega
  · exact ⟨hlo, hhi⟩

theorem averageAdc_bounds {burst : Burst} {averageAdc : ℚ} (h : burst.averageAdc = some averageAdc) :
    0 ≤ averageAdc ∧ averageAdc ≤ 6143 := by
  obtain ⟨hlo, hhi⟩ := accumulate_bounds burst.outcomes
  simp only [Burst.averageAdc, Accumulator.average, Option.ite_none_left_eq_some, Option.some.injEq] at h
  obtain ⟨hcount, rfl⟩ := h
  have hpos : (0 : ℚ) < (accumulate burst.outcomes).sampleCount := by
    exact_mod_cast Nat.pos_of_ne_zero hcount
  have hlo' : (0 : ℚ) ≤ (accumulate burst.outcomes).adValue := by exact_mod_cast hlo
  refine ⟨by positivity, ?_⟩
  rw [div_le_iff₀ hpos]
  exact_mod_cast hhi

/-- **No power is ever reported**, whatever the conversions come to. -/
theorem taskSolar_eq (currentBurst voltageBurst : Burst) :
    taskSolar currentBurst voltageBurst = ⟨sensorSolarPower, "0", 5000⟩ := by
  have hvoltage : getSolarVoltage voltageBurst.averageAdc ≤ 14 := by
    unfold getSolarVoltage
    split
    · norm_num
    · next averageAdc havg =>
        have hle := (averageAdc_bounds havg).2
        norm_num [adcToVoltage]
        linarith
  have hcurrent : getSolarCurrent currentBurst.averageAdc < 0.7 := by
    unfold getSolarCurrent
    split
    · norm_num
    · next averageAdc havg =>
        have hle := (averageAdc_bounds havg).2
        norm_num [adcToCurrent]
        linarith
  have hnot : ¬ shouldReportPower (getSolarVoltage voltageBurst.averageAdc)
        (getSolarCurrent currentBurst.averageAdc) := by
    rintro (h | h)
    · norm_num at h
      linarith
    · exact absurd hcurrent (not_lt.2 h)
  simp [taskSolar, cycleOf, hnot]

end SensorSolarPanel

end CroniotWatering
