import CroniotWatering.Library.Decimal
import CroniotWatering.Sensors.Sensor

set_option autoImplicit false

/-! # The use of the memory

`Sensors/SensorRamUsage.cpp`. Both sizes are rounded down to kilobytes before they are subtracted, and the
subtraction is one of 32 bits without a sign. -/

namespace CroniotWatering.SensorRamUsage

/-- One cycle of `taskRamUsage`, on the sizes in bytes of the whole heap and of what is free. -/
def taskRamUsage (totalSize freeSize : UInt32) : SensorCycle :=
  let totalHeapSize := totalSize / 1024
  let freeHeap := freeSize / 1024
  let usedHeap := totalHeapSize - freeHeap
  ⟨[.sendSensorData sensorRamUsage (toString usedHeap.toNat)], 1000⟩

/-- The kilobytes of a size. -/
def kilobytes (size : UInt32) : ℕ := size.toNat / 1024

theorem toNat_div_1024 (size : UInt32) : (size / 1024).toNat = kilobytes size := UInt32.toNat_div ..

theorem kilobytes_lt (size : UInt32) : kilobytes size < 2 ^ 22 := by
  have hsize := size.toNat_lt
  unfold kilobytes
  omega

/-- The number that is published. -/
def usedKb (totalSize freeSize : UInt32) : ℕ := (totalSize / 1024 - freeSize / 1024).toNat

/-- More free than there is in all wraps around. -/
theorem usedKb_eq (totalSize freeSize : UInt32) :
    usedKb totalSize freeSize
      = if kilobytes freeSize ≤ kilobytes totalSize then kilobytes totalSize - kilobytes freeSize
        else 2 ^ 32 + kilobytes totalSize - kilobytes freeSize := by
  have htotal := kilobytes_lt totalSize
  have hfree := kilobytes_lt freeSize
  rw [usedKb, UInt32.toNat_sub, toNat_div_1024, toNat_div_1024]
  split <;> omega

/-- **The published number is at most a bound on the heap** exactly if there is no more free than in all,
    and the difference is at most the bound. -/
theorem usedKb_le_iff (boundSize totalSize freeSize : UInt32) :
    usedKb totalSize freeSize ≤ kilobytes boundSize
      ↔ kilobytes freeSize ≤ kilobytes totalSize ∧
        kilobytes totalSize ≤ kilobytes boundSize + kilobytes freeSize := by
  have hbound := kilobytes_lt boundSize
  have hfree := kilobytes_lt freeSize
  rw [usedKb_eq]
  split
  · omega
  · refine iff_of_false ?_ ?_ <;> omega

end CroniotWatering.SensorRamUsage
