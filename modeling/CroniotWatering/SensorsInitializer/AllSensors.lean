import CroniotWatering.Sensors.SensorRamUsage
import CroniotWatering.SensorsInitializer

set_option autoImplicit false

/-! # Every number that is published

The two other sensors with a declared range, the solar panel and the memory, and all five ranges at once.
The panel never reports anything but 0, which is in range; the memory's range is the size of the heap, in
kilobytes, at the time it is declared. -/

namespace CroniotWatering.SensorsInitializer

open SensorBattery SensorRamUsage SensorSolarPanel SensorWiFiInfoLogic

/-- The readings of any number of cycles of every sensor with a range. The size of the heap is asked for
    when the range is declared, and again when the sensor starts. -/
structure AllReadings extends HardwareReadings where
  solar : List (Burst × Burst)
  declaredHeap : UInt32
  totalHeap : UInt32
  freeHeap : List UInt32

def solarPublished (bursts : Burst × Burst) : List Publication :=
  let cycle := taskSolar bursts.1 bursts.2
  [.sendSensorData cycle.sensorUid cycle.solarPowerStr]

def ramPublished (totalHeap freeHeap : UInt32) : List Publication :=
  (taskRamUsage totalHeap freeHeap).published

def publishedByAll (readings : AllReadings) : List Publication :=
  published readings.toHardwareReadings ++ readings.solar.flatMap solarPublished
    ++ readings.freeHeap.flatMap (ramPublished readings.totalHeap)

theorem declaredRange_solar (heapKb : ℕ) : declaredRange heapKb sensorSolarPower = some (0, 50) := by
  have hmin : Decimal.value "0" = 0 := by decide +kernel
  have hmax : Decimal.value "50" = 50 := by decide +kernel
  rw [← hmin, ← hmax]
  rfl

theorem declaredRange_ram (heapKb : ℕ) :
    declaredRange heapKb sensorRamUsage = some (0, (heapKb : ℚ)) := by
  have hmin : Decimal.value "0" = 0 := by decide +kernel
  rw [← hmin, ← Decimal.value_toString_nat heapKb]
  rfl

theorem solar_inDeclaredRange (heapKb : ℕ) (bursts : Burst × Burst) :
    ∀ publication ∈ solarPublished bursts, InDeclaredRange heapKb publication := by
  have hzero : Decimal.value "0" = 0 := by decide +kernel
  simp only [solarPublished, taskSolar_eq, List.forall_mem_singleton]
  rw [inDeclaredRange_iff (declaredRange_solar heapKb)]
  simp only [numericValue, hzero]
  norm_num

/-- The condition under which a cycle of the memory keeps to its range. -/
def MemoryInRange (declaredHeap totalHeap freeHeap : UInt32) : Prop :=
  kilobytes freeHeap ≤ kilobytes totalHeap ∧
    kilobytes totalHeap ≤ kilobytes declaredHeap + kilobytes freeHeap

theorem ram_inDeclaredRange_iff (declaredHeap totalHeap freeHeap : UInt32) :
    (∀ publication ∈ ramPublished totalHeap freeHeap,
      InDeclaredRange (kilobytes declaredHeap) publication)
        ↔ MemoryInRange declaredHeap totalHeap freeHeap := by
  have hvalue : Decimal.value (toString (totalHeap / 1024 - freeHeap / 1024).toNat)
      = usedKb totalHeap freeHeap := Decimal.value_toString_nat _
  simp only [ramPublished, taskRamUsage, List.forall_mem_singleton]
  rw [inDeclaredRange_iff (declaredRange_ram _), MemoryInRange, ← usedKb_le_iff]
  simp only [numericValue, hvalue, Nat.cast_nonneg, true_and, Nat.cast_le]

/-- **Which readings are published in range**, over all the sensors that declare one: those of a signal
    with every mean above -91 and at most -30 dBm, of a battery with every power at most 96.005 W, any of a
    solar panel, and those of a memory with never more free than there is in all, and a heap that has not
    outgrown what was declared. -/
theorem publishedByAll_inDeclaredRange_iff (readings : AllReadings) :
    (∀ publication ∈ publishedByAll readings,
      InDeclaredRange (kilobytes readings.declaredHeap) publication)
        ↔ (∀ apInfos ∈ readings.wifi, SignalInRange apInfos) ∧
          (∀ bursts ∈ readings.battery,
            powerOf (adcValues bursts.1) (adcValues bursts.2) ≤ 96.005) ∧
          ∀ freeHeap ∈ readings.freeHeap,
            MemoryInRange readings.declaredHeap readings.totalHeap freeHeap := by
  simp only [publishedByAll, published, List.forall_mem_append, List.forall_mem_flatMap,
    wifi_inDeclaredRange_iff, battery_inDeclaredRange_iff, ram_inDeclaredRange_iff]
  have hsolar : ∀ bursts ∈ readings.solar, ∀ publication ∈ solarPublished bursts,
      InDeclaredRange (kilobytes readings.declaredHeap) publication :=
    fun bursts _ => solar_inDeclaredRange _ bursts
  rw [and_assoc, and_assoc, and_iff_right hsolar]

end CroniotWatering.SensorsInitializer
