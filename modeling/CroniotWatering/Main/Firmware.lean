import CroniotWatering.Library.Monitor
import CroniotWatering.Tasks.LedTasks
import CroniotWatering.Tasks.TaskWaterPlants
import CroniotWatering.Tasks.TaskWaterPumpSwitch

set_option autoImplicit false

/-! # The firmware

The five tasks of `TasksInitializer.cpp` as one task system over the levels of the pins. The main
thread constructs them in the order of `registerTasks` and starts each as soon as it is constructed;
from then on every GPIO write, every enqueued update and both ends of every delay is one step, and
the steps of the tasks interleave freely. -/

namespace CroniotWatering

inductive TaskId where
  | ledTest
  | ledSwitch
  | waterPlants
  | waterPumpSwitch
  | ledSlider
deriving DecidableEq

namespace TaskId

/-- `registerTasks`. -/
def registerTasks : List TaskId := [.ledTest, .ledSwitch, .waterPlants, .waterPumpSwitch, .ledSlider]

theorem registerTasks_nodup : registerTasks.Nodup := by decide

theorem mem_registerTasks (t : TaskId) : t ∈ registerTasks := by
  cases t <;> decide

def constructor : TaskId → TaskM Unit
  | .ledTest => TaskLedTest.constructor
  | .ledSwitch => TaskLedSwitch.constructor
  | .waterPlants => TaskWaterPlants.constructor
  | .waterPumpSwitch => TaskWaterPumpSwitch.constructor
  | .ledSlider => TaskLedSlider.constructor

def executeTask : TaskId → SimpleTaskData → TaskM Unit
  | .ledTest => TaskLedTest.executeTask
  | .ledSwitch => TaskLedSwitch.executeTask
  | .waterPlants => TaskWaterPlants.executeTask
  | .waterPumpSwitch => TaskWaterPumpSwitch.executeTask
  | .ledSlider => TaskLedSlider.executeTask

end TaskId

/-- The firmware. -/
def firmware : TaskSystem.System TaskId SimpleTaskData Action Levels where
  task t :=
    { construct := (t.constructor).actions
      handle := fun taskData => (t.executeTask taskData).actions }
  order := TaskId.registerTasks
  apply := Action.apply
  halts := Action.halts

namespace Firmware

abbrev Event := TaskSystem.Event TaskId SimpleTaskData Action
abbrev State := TaskSystem.State TaskId SimpleTaskData Action Levels
abbrev Thread := TaskSystem.Thread SimpleTaskData Action
abbrev History := List Event

/-! ## The pins as the code writes them -/

@[simp] theorem apply_gpioSetLevel (pin : GpioNum) (level : Int) (levels : Levels) :
    (Action.gpioSetLevel pin level).apply levels = Function.update levels pin level := rfl

end Firmware

end CroniotWatering
