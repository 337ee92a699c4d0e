import CroniotWatering.Sensors.ADS1115Controller.Bus
import CroniotWatering.Sensors.SensorBattery.Failures
import CroniotWatering.Sensors.SensorSolarPanel

set_option autoImplicit false

/-! # The cycles of the analog sensors over the bus

The battery and the solar panel measure each of their channels with twenty readings in a row. Their
cycles, with the transfers they make, come to the cycles on the outcomes of forty conversions. -/

namespace CroniotWatering

open Espp ADS1115Controller

namespace ADS1115Controller

section

variable {m : Type → Type} [Monad m]

/-- The readings of a measurement, in order. -/
def readValues (read : Fin 4 → m Int) (pin : Fin 4) : (n : ℕ) → m (Vector Int n)
  | 0 => pure #v[]
  | n + 1 => do
      let values ← readValues read pin n
      let value ← read pin
      pure (values.push value)

/-- A measurement takes twenty. -/
def measure (read : Fin 4 → m Int) (pin : Fin 4) : m SensorBattery.AdcValues := do
  let values ← readValues read pin 20
  pure ⟨values.toList, values.length_toList⟩

end

/-- The replies to one whole reading. -/
def IsReading (i2c : I2c) (pin : Fin 4) (used : List Reply) : Prop :=
  ∃ qs value, (readValueOverBus i2c pin).run used = ⟨qs, some (value, [])⟩

/-- Readings come to the outcomes of successive parts of the replies. -/
theorem readValues_refines {i2c : I2c} {pin : Fin 4} {n : ℕ} {rs rest : List Reply} {qs : List Transfer}
    {values : Vector Int n} (h : (readValues (readValueOverBus i2c) pin n).run rs = ⟨qs, some (values, rest)⟩) :
    ∃ parts : List (List Reply), parts.length = n ∧ rs = parts.flatten ++ rest ∧
      (∀ used ∈ parts, IsReading i2c pin used) ∧
      values.toList = parts.map fun used => readValueBlocking (outcomeOf i2c used) := by
  induction n generalizing qs rest with
  | zero =>
      cases h
      exact ⟨[], rfl, rfl, by simp, rfl⟩
  | succ n ih =>
      obtain ⟨qs₁, previous, mid, qs₂, hprevious, hnext, -⟩ := Dialogue.run_bind_inv h
      obtain ⟨qs₃, value, rest', qs₄, hvalue, hend, -⟩ := Dialogue.run_bind_inv hnext
      obtain ⟨-, rfl, rfl⟩ := Dialogue.run_pure_inv hend
      obtain ⟨parts, hlength, rfl, hreadings, hparts⟩ := ih hprevious
      obtain ⟨used, rfl, -, hused, rfl⟩ := exists_used hvalue
      refine ⟨parts ++ [used], by simp [hlength], by simp, ?_, ?_⟩
      · simp only [List.mem_append, List.mem_singleton]
        rintro part (hpart | rfl)
        · exact hreadings part hpart
        · exact ⟨_, _, hused⟩
      · rw [Vector.toList_push, hparts, List.map_append]
        rfl

/-- A measurement comes to the values of a burst, of the outcomes of successive parts of the replies. -/
theorem measure_refines {i2c : I2c} {pin : Fin 4} {rs rest : List Reply} {qs : List Transfer}
    {adc : SensorBattery.AdcValues} (h : (measure (readValueOverBus i2c) pin).run rs = ⟨qs, some (adc, rest)⟩) :
    ∃ (burst : Burst) (parts : List (List Reply)), rs = parts.flatten ++ rest ∧
      (∀ used ∈ parts, IsReading i2c pin used) ∧ burst.outcomes = parts.map (outcomeOf i2c) ∧
      adc = SensorBattery.adcValues burst := by
  unfold measure at h
  obtain ⟨qs₁, values, mid, qs₂, hvalues, hend, -⟩ := Dialogue.run_bind_inv h
  obtain ⟨-, rfl, rfl⟩ := Dialogue.run_pure_inv hend
  obtain ⟨parts, hlength, rfl, hreadings, hparts⟩ := readValues_refines hvalues
  refine ⟨⟨parts.map (outcomeOf i2c), by rw [List.length_map, hlength]⟩, parts, rfl, hreadings, rfl, ?_⟩
  simp only [SensorBattery.adcValues, List.map_map, hparts]
  rfl

end ADS1115Controller

/-! ## The battery -/

namespace SensorBattery

def adsInputBatteryCurrent : Fin 4 := 0
def adsInputBatteryVoltage : Fin 4 := 1

/-- One cycle of `taskBattery`, with the readings it makes. -/
def taskBatteryWith {m : Type → Type} [Monad m] (read : Fin 4 → m Int) : m SensorCycle := do
  let current ← measure read adsInputBatteryCurrent
  let voltage ← measure read adsInputBatteryVoltage
  pure (taskBattery current voltage)

/-- **A cycle of the battery on the bus is one on the outcomes of its conversions.** Whatever the bus
    replies, a cycle that comes to its end publishes what it publishes for two bursts whose outcomes are
    those of successive readings, first twenty of the current, then twenty of the voltage. -/
theorem taskBatteryWith_refines {i2c : I2c} {rs rest : List Reply} {qs : List Transfer}
    {cycle : SensorCycle} (h : (taskBatteryWith (readValueOverBus i2c)).run rs = ⟨qs, some (cycle, rest)⟩) :
    ∃ (current voltage : Burst) (currentParts voltageParts : List (List Reply)),
      rs = currentParts.flatten ++ (voltageParts.flatten ++ rest) ∧
      (∀ used ∈ currentParts, IsReading i2c adsInputBatteryCurrent used) ∧
      (∀ used ∈ voltageParts, IsReading i2c adsInputBatteryVoltage used) ∧
      current.outcomes = currentParts.map (outcomeOf i2c) ∧
      voltage.outcomes = voltageParts.map (outcomeOf i2c) ∧
      cycle = taskBattery (adcValues current) (adcValues voltage) := by
  unfold taskBatteryWith at h
  obtain ⟨qs₁, adcCurrent, mid, qs₂, hcurrent, hnext, -⟩ := Dialogue.run_bind_inv h
  obtain ⟨qs₃, adcVoltage, rest', qs₄, hvoltage, hend, -⟩ := Dialogue.run_bind_inv hnext
  obtain ⟨-, rfl, rfl⟩ := Dialogue.run_pure_inv hend
  obtain ⟨current, currentParts, rfl, hreadings, houtcomes, rfl⟩ := measure_refines hcurrent
  obtain ⟨voltage, voltageParts, rfl, hreadings', houtcomes', rfl⟩ := measure_refines hvoltage
  exact ⟨current, voltage, currentParts, voltageParts, rfl, hreadings, hreadings', houtcomes,
    houtcomes', rfl⟩

end SensorBattery

/-! ## The solar panel -/

namespace SensorSolarPanel

open SensorSolarPanelLogic

def adsInputSolarVoltage : Fin 4 := 2
def adsInputSolarCurrent : Fin 4 := 3

/-- One cycle of `taskSolar`, with the readings it makes. -/
def taskSolarWith {m : Type → Type} [Monad m] (read : Fin 4 → m Int) : m Cycle := do
  let current ← measure read adsInputSolarCurrent
  let voltage ← measure read adsInputSolarVoltage
  pure (cycleOf current.accumulate.average voltage.accumulate.average)

theorem average_adcValues (burst : Burst) :
    (SensorBattery.adcValues burst).accumulate.average = burst.averageAdc := by
  have hloop : (SensorBattery.adcValues burst).accumulate = accumulate burst.outcomes :=
    List.foldl_map
  rw [hloop, Burst.averageAdc]

/-- **A cycle of the panel on the bus is one on the outcomes of its conversions**, first twenty of the
    current, then twenty of the voltage. -/
theorem taskSolarWith_refines {i2c : I2c} {rs rest : List Reply} {qs : List Transfer}
    {cycle : Cycle} (h : (taskSolarWith (readValueOverBus i2c)).run rs = ⟨qs, some (cycle, rest)⟩) :
    ∃ (current voltage : Burst) (currentParts voltageParts : List (List Reply)),
      rs = currentParts.flatten ++ (voltageParts.flatten ++ rest) ∧
      (∀ used ∈ currentParts, IsReading i2c adsInputSolarCurrent used) ∧
      (∀ used ∈ voltageParts, IsReading i2c adsInputSolarVoltage used) ∧
      current.outcomes = currentParts.map (outcomeOf i2c) ∧
      voltage.outcomes = voltageParts.map (outcomeOf i2c) ∧
      cycle = taskSolar current voltage := by
  unfold taskSolarWith at h
  obtain ⟨qs₁, adcCurrent, mid, qs₂, hcurrent, hnext, -⟩ := Dialogue.run_bind_inv h
  obtain ⟨qs₃, adcVoltage, rest', qs₄, hvoltage, hend, -⟩ := Dialogue.run_bind_inv hnext
  obtain ⟨-, rfl, rfl⟩ := Dialogue.run_pure_inv hend
  obtain ⟨current, currentParts, rfl, hreadings, houtcomes, rfl⟩ := measure_refines hcurrent
  obtain ⟨voltage, voltageParts, rfl, hreadings', houtcomes', rfl⟩ := measure_refines hvoltage
  refine ⟨current, voltage, currentParts, voltageParts, rfl, hreadings, hreadings', houtcomes,
    houtcomes', ?_⟩
  rw [average_adcValues, average_adcValues, taskSolar]

end SensorSolarPanel

end CroniotWatering
