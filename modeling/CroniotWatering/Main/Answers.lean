import CroniotWatering.Main.Exceptions
import CroniotWatering.Main.SwitchState
import CroniotWatering.Tasks.LedTasks.LedTest
import CroniotWatering.Tasks.LedTasks.Slider
import CroniotWatering.Tasks.TaskWaterPlants.Answer

set_option autoImplicit false

/-! # What the tasks answer

The updates of every task, on every message it can get: which messages a task handles to the end, what
it answers to those, and how each update is addressed. The queue the updates go to is shared by the
five tasks, so it is the addresses alone that tell the answers apart; and three of the tasks announce a
state there that answers nothing, when the framework calls their `run`. -/

namespace CroniotWatering

open TaskSystem
open TaskWaterPlants (enqueuedUpdate enqueuedUpdates enqueuedUpdates_append)

/-! ## Announcements

`run` of each task, without the registration of a callback. -/

def TaskLedTest.run : TaskM Unit := pure ()

def TaskLedSwitch.run : TaskM Unit := enqueueTaskProgressUpdate ⟨getUid, -1, "off", -1, ""⟩

def TaskWaterPlants.run : TaskM Unit := pure ()

def TaskWaterPumpSwitch.run : TaskM Unit := enqueueTaskProgressUpdate ⟨getUid, -1, "off", -1, ""⟩

def TaskLedSlider.run : TaskM Unit := enqueueTaskProgressUpdate ⟨getUid, -1, "0", -1, ""⟩

namespace TaskId

def run : TaskId → TaskM Unit
  | .ledTest => TaskLedTest.run
  | .ledSwitch => TaskLedSwitch.run
  | .waterPlants => TaskWaterPlants.run
  | .waterPumpSwitch => TaskWaterPumpSwitch.run
  | .ledSlider => TaskLedSlider.run

/-! ## Answers -/

def getUid : TaskId → Int
  | .ledTest => TaskLedTest.getUid
  | .ledSwitch => TaskLedSwitch.getUid
  | .waterPlants => TaskWaterPlants.getUid
  | .waterPumpSwitch => TaskWaterPumpSwitch.getUid
  | .ledSlider => TaskLedSlider.getUid

end TaskId

namespace Actuator

variable {A : Actuator} {m : SimpleTaskData}

theorem actions_switch (A : Actuator) (m : SimpleTaskData) :
    (A.switch.executeTask m).actions = A.switchActions m := handle_switch A m

end Actuator

/-! ## The LED test and the slider -/

end CroniotWatering
