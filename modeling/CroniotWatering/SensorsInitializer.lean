import CroniotWatering.Sensors.SensorBattery.Failures
import CroniotWatering.Sensors.SensorBattery.Format
import CroniotWatering.Sensors.SensorBattery.Percentage
import CroniotWatering.Sensors.SensorSolarPanel
import CroniotWatering.Sensors.SensorWiFiInfo

set_option autoImplicit false

/-! # The ranges the sensors declare

`registerSensorTypes` of `SensorsInitializer.cpp`, without the texts for the user, and the values that
three of the sensors publish under it. The percentage is clamped to its range; the signal and the power
are published as they come out. -/

namespace CroniotWatering.SensorsInitializer

open SensorBattery SensorBatteryLogic SensorWiFiInfoLogic SensorWiFiStrength

/-- `PARAMETERS_NUMBER_MIN_VALUE` and `PARAMETERS_NUMBER_MAX_VALUE`. -/
structure Constraints where
  minValue : String
  maxValue : String

structure SensorType where
  sensorUid : Int
  /-- `none` for the empty map. -/
  constraints : Option Constraints

/-- The sensor types, where the heap has `heapKb` kilobytes. -/
def registerSensorTypes (heapKb : ℕ) : List SensorType :=
  [⟨sensorWifiStrength, some ⟨"-90", "-30"⟩⟩,
    ⟨sensorBatteryPercentage, some ⟨"0", "100"⟩⟩,
    ⟨sensorBatteryPowerConsumption, some ⟨"0", "96"⟩⟩,
    ⟨SensorSolarPanel.sensorSolarPower, some ⟨"0", "50"⟩⟩,
    ⟨sensorRamUsage, some ⟨"0", toString heapKb⟩⟩,
    ⟨sensorCurrentTime, none⟩]

/-- The range declared for a sensor. -/
def declaredRange (heapKb : ℕ) (sensorUid : Int) : Option (ℚ × ℚ) :=
  ((registerSensorTypes heapKb).find? fun sensorType => sensorType.sensorUid = sensorUid).bind
    fun sensorType => sensorType.constraints.map fun constraints =>
      (Decimal.value constraints.minValue, Decimal.value constraints.maxValue)

/-- The number that is published. -/
def numericValue : Publication → ℚ
  | .reportSample _ value => value
  | .sendSensorData _ value => Decimal.value value

/-- A value in the range its sensor declares. -/
def InDeclaredRange (heapKb : ℕ) (publication : Publication) : Prop :=
  ∃ lo hi, declaredRange heapKb publication.sensorUid = some (lo, hi) ∧
    lo ≤ numericValue publication ∧ numericValue publication ≤ hi

/-! ## What is published -/

/-- The hardware readings of any number of cycles: the queries of the signal, and the outcomes on the
    current and the voltage channel of the battery. -/
structure HardwareReadings where
  wifi : List ApInfos
  battery : List (Burst × Burst)

def wifiPublished (apInfos : ApInfos) : List Publication :=
  match (SensorWiFiStrength.task apInfos).result with
  | .ok cycle => cycle.published
  | .error _ => []

def batteryPublished (bursts : Burst × Burst) : List Publication :=
  (taskBattery (adcValues bursts.1) (adcValues bursts.2)).published

def published (hardware : HardwareReadings) : List Publication :=
  hardware.wifi.flatMap wifiPublished ++ hardware.battery.flatMap batteryPublished

/-! ## The declared ranges as numbers -/

theorem declaredRange_wifi (heapKb : ℕ) : declaredRange heapKb sensorWifiStrength = some (-90, -30) := by
  have hmin : Decimal.value "-90" = -90 := by decide +kernel
  have hmax : Decimal.value "-30" = -30 := by decide +kernel
  rw [← hmin, ← hmax]
  rfl

theorem declaredRange_percentage (heapKb : ℕ) :
    declaredRange heapKb sensorBatteryPercentage = some (0, 100) := by
  have hmin : Decimal.value "0" = 0 := by decide +kernel
  have hmax : Decimal.value "100" = 100 := by decide +kernel
  rw [← hmin, ← hmax]
  rfl

theorem declaredRange_power (heapKb : ℕ) :
    declaredRange heapKb sensorBatteryPowerConsumption = some (0, 96) := by
  have hmin : Decimal.value "0" = 0 := by decide +kernel
  have hmax : Decimal.value "96" = 96 := by decide +kernel
  rw [← hmin, ← hmax]
  rfl

theorem inDeclaredRange_iff {heapKb : ℕ} {publication : Publication} {lo hi : ℚ}
    (h : declaredRange heapKb publication.sensorUid = some (lo, hi)) :
    InDeclaredRange heapKb publication
      ↔ lo ≤ numericValue publication ∧ numericValue publication ≤ hi := by
  unfold InDeclaredRange
  constructor
  · rintro ⟨lo', hi', hrange, hbounds⟩
    rw [h] at hrange
    cases hrange
    exact hbounds
  · intro hbounds
    exact ⟨lo, hi, h, hbounds⟩

/-! ## The signal -/

/-- The mean of the samples that count. -/
def rssiMean (samples : List Int) : ℚ :=
  ((validSamples samples).sum : ℚ) / (validSamples samples).length

/-- A cycle publishes the average of its valid samples, if there are any. -/
theorem wifiPublished_eq (apInfos : ApInfos) :
    wifiPublished apInfos
      = if validSamples apInfos.rssiSamples = [] then []
        else [.sendSensorData sensorWifiStrength
          (toString (exactResult apInfos.rssiSamples).average)] := by
  have hlength : apInfos.rssiSamples.length * 127 < 2 ^ 31 := by
    have hle := List.length_filterMap_le (fun result => result.map ApRssi.val) apInfos.results
    rw [apInfos.length_eq] at hle
    have hsamples : apInfos.rssiSamples.length ≤ 10 := hle
    omega
  have hcount : (exactResult apInfos.rssiSamples).validCount = 0
      ↔ validSamples apInfos.rssiSamples = [] := by
    simp [exactResult]
  unfold wifiPublished SensorWiFiStrength.task
  rw [averageRssi_eq hlength, Exec.ok_bind]
  by_cases hnone : validSamples apInfos.rssiSamples = []
  · simp [hcount, hnone]
  · simp [hcount, hnone]

/-- Rounding toward zero takes every mean above -91 to at least -90. -/
theorem average_bounds_iff {samples : List Int} (h : validSamples samples ≠ []) :
    -90 ≤ (exactResult samples).average ∧ (exactResult samples).average ≤ -30
      ↔ -91 < rssiMean samples ∧ rssiMean samples ≤ -30 := by
  have hpos : 0 < (validSamples samples).length := List.length_pos_of_ne_nil h
  have hcast : (0 : ℚ) < (validSamples samples).length := by exact_mod_cast hpos
  have hle : (validSamples samples).sum ≤ (validSamples samples).length • (-20) :=
    List.sum_le_card_nsmul _ _ fun rssi hrssi => (bounds_of_validSamples samples rssi hrssi).2
  have haverage : (exactResult samples).average
      = (validSamples samples).sum.tdiv (validSamples samples).length := if_pos hpos
  rw [haverage, rssiMean, lt_div_iff₀ hcast, div_le_iff₀ hcast]
  generalize (validSamples samples).sum = sum at hle
  generalize (validSamples samples).length = n at hpos hle
  rw [nsmul_eq_mul] at hle
  -- the sum is negative, so the quotient is that of its absolute value, rounded down
  have hneg := CInt.tdiv_of_nonpos (by omega : sum ≤ 0) n
  have hlower : -90 ≤ sum.tdiv n ↔ -91 * (n : ℤ) < sum := by
    have hlt : -sum / n < 91 ↔ -sum < 91 * n := Int.ediv_lt_iff_lt_mul (by omega)
    omega
  have hupper : sum.tdiv n ≤ -30 ↔ sum ≤ -30 * (n : ℤ) := by
    have hge : 30 ≤ -sum / n ↔ 30 * n ≤ -sum := Int.le_ediv_iff_mul_le (by omega)
    omega
  rw [hlower, hupper]
  exact_mod_cast Iff.rfl

/-- The condition under which a cycle of the signal keeps to its range. -/
def SignalInRange (apInfos : ApInfos) : Prop :=
  validSamples apInfos.rssiSamples ≠ [] →
    -91 < rssiMean apInfos.rssiSamples ∧ rssiMean apInfos.rssiSamples ≤ -30

theorem wifi_inDeclaredRange_iff (heapKb : ℕ) (apInfos : ApInfos) :
    (∀ publication ∈ wifiPublished apInfos, InDeclaredRange heapKb publication)
      ↔ SignalInRange apInfos := by
  rw [wifiPublished_eq, SignalInRange]
  by_cases hnone : validSamples apInfos.rssiSamples = []
  · simp [hnone]
  · rw [if_neg hnone, List.forall_mem_singleton, inDeclaredRange_iff (declaredRange_wifi heapKb),
      ← average_bounds_iff hnone]
    simp only [numericValue, Decimal.value_toString, hnone, ne_eq, not_false_eq_true, true_imp_iff]
    exact_mod_cast Iff.rfl

/-! ## The power -/

/-- The power, in watts, by the means of the two channels; a channel without a reading counts as 0. -/
def powerOf (current voltage : AdcValues) : ℚ :=
  (if voltage.readings = [] then 0 else voltageOfMv voltage.meanMv)
    * |if current.readings = [] then 0 else currentOfMv current.meanMv|

theorem batteryPower_eq (current voltage : AdcValues) :
    getBatteryVoltage voltage * |getBatteryCurrent current| = powerOf current voltage := by
  rw [getBatteryVoltage_of_accumulate voltage.accumulate_eq,
    getBatteryCurrent_of_accumulate current.accumulate_eq]
  simp only [List.length_eq_zero_iff, powerOf, AdcValues.meanMv]

theorem powerOf_nonneg (current voltage : AdcValues) : 0 ≤ powerOf current voltage := by
  rw [← batteryPower_eq]
  exact mul_nonneg (getBatteryVoltage_nonneg voltage) (abs_nonneg _)

theorem value_power_le_iff {q : ℚ} (hq : 0 ≤ q) :
    Decimal.value (formatMax2Decimals q) ≤ 96 ↔ q ≤ 96.005 := by
  have hround : 0 ≤ roundHalfEven (q * 10 ^ 2) := roundHalfEven_nonneg (by positivity)
  have hhundredths : ((roundHalfEven (q * 10 ^ 2)).toNat : ℚ) ≤ 9600
      ↔ roundHalfEven (q * 10 ^ 2) ≤ 9600 := by
    have hnat : (roundHalfEven (q * 10 ^ 2)).toNat ≤ 9600 ↔ roundHalfEven (q * 10 ^ 2) ≤ 9600 := by
      omega
    exact_mod_cast hnat
  have hscale : (96 : ℚ) * 10 ^ 2 = 9600 := by norm_num
  have hbound : q * 10 ^ 2 ≤ ((9600 : ℤ) : ℚ) + 1 / 2 ↔ q ≤ 96.005 := by
    constructor
    · intro h
      norm_num at h ⊢
      linarith
    · intro h
      norm_num at h ⊢
      linarith
  rw [value_formatMax2Decimals hq, div_le_iff₀ (by norm_num), hscale, hhundredths,
    roundHalfEven_le_iff (by decide), hbound]

/-- The percentage is always in its range; the power is up to half a hundredth above it. -/
theorem battery_inDeclaredRange_iff (heapKb : ℕ) (bursts : Burst × Burst) :
    (∀ publication ∈ batteryPublished bursts, InDeclaredRange heapKb publication)
      ↔ powerOf (adcValues bursts.1) (adcValues bursts.2) ≤ 96.005 := by
  have hpower := powerOf_nonneg (adcValues bursts.1) (adcValues bursts.2)
  have hvalue : 0 ≤ Decimal.value
      (formatMax2Decimals (powerOf (adcValues bursts.1) (adcValues bursts.2))) := by
    rw [value_formatMax2Decimals hpower]
    positivity
  unfold batteryPublished taskBattery
  simp only [batteryPower_eq, List.forall_mem_cons]
  rw [inDeclaredRange_iff (declaredRange_percentage heapKb),
    inDeclaredRange_iff (declaredRange_power heapKb)]
  simp only [numericValue, clampPercentage_mem, value_power_le_iff hpower, hvalue, true_and,
    and_true, List.not_mem_nil, false_imp_iff, implies_true]

/-! ## Everything that is published -/

/-- **Which readings are published in range**: those with every mean of a signal above -91 and at most
    -30 dBm, and every power of the battery at most 96.005 W. -/
theorem published_inDeclaredRange_iff (heapKb : ℕ) (hardware : HardwareReadings) :
    (∀ publication ∈ published hardware, InDeclaredRange heapKb publication)
      ↔ (∀ apInfos ∈ hardware.wifi, SignalInRange apInfos) ∧
        ∀ bursts ∈ hardware.battery, powerOf (adcValues bursts.1) (adcValues bursts.2) ≤ 96.005 := by
  simp only [published, List.forall_mem_append, List.forall_mem_flatMap, wifi_inDeclaredRange_iff,
    battery_inDeclaredRange_iff]

/-- A signal of -95 dBm throughout. -/
def weakSignal : ApInfos where
  results := List.replicate 10 (some ⟨-95, by decide, by decide⟩)
  length_eq := List.length_replicate

theorem not_published_weakSignal :
    ¬ ∀ (heapKb : ℕ) (hardware : HardwareReadings),
      ∀ publication ∈ published hardware, InDeclaredRange heapKb publication := by
  intro hclaim
  have hwifi : ∀ publication ∈ wifiPublished weakSignal, InDeclaredRange 0 publication := by
    intro publication hmem
    exact hclaim 0 ⟨[weakSignal], []⟩ publication (by simpa [published] using hmem)
  have hmean : rssiMean weakSignal.rssiSamples = -95 := by decide +kernel
  have hrange := (wifi_inDeclaredRange_iff 0 weakSignal).1 hwifi (by decide)
  rw [hmean] at hrange
  norm_num at hrange

end CroniotWatering.SensorsInitializer
