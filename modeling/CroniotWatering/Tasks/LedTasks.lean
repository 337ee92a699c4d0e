import CroniotWatering.Framework

set_option autoImplicit false

/-! # The LED tasks

`Tasks/TaskLedTest.cpp`, `Tasks/TaskLedSwitch.cpp` and `Tasks/TaskLedSlider.cpp`, which share one
pin. The member `currentState`, which nothing reads, is left out. -/

namespace CroniotWatering

def pinLedTest : GpioNum := .num2

namespace TaskLedTest

def getUid : Int := taskLedTest

def constructor : TaskM Unit := gpioSetLevel pinLedTest 0

def executeTask (taskData : SimpleTaskData) : TaskM Unit := do
  enqueueTaskProgressUpdate ⟨getUid, taskData.taskUid, "RUNNING", 0, ""⟩
  -- the source reads the duration under the watering task's constant
  let parameterDuration := taskWaterPlantsParameterDuration
  let durationStr ← taskData.parametersValues.at parameterDuration
  let durationSeconds ← stoi durationStr
  gpioSetLevel pinLedTest 1
  -- `for (int i = 1; i <= durationSeconds; i++)`
  Exec.forLoop CInt.maxValue .intOverflow (fun i => i ≤ durationSeconds) 1
    (fun i _ => do
      let progressPercentage : ℚ := i * 100 / durationSeconds
      enqueueTaskProgressUpdate ⟨getUid, taskData.taskUid, "RUNNING", progressPercentage, ""⟩
      vTaskDelay 1000)
    1 ()
  gpioSetLevel pinLedTest 0
  enqueueTaskProgressUpdate ⟨getUid, taskData.taskUid, "COMPLETED", 100, ""⟩

end TaskLedTest

namespace TaskLedSwitch

def getUid : Int := taskLedSwitch

def constructor : TaskM Unit := gpioSetLevel pinLedTest 0

def executeTask (taskData : SimpleTaskData) : TaskM Unit := do
  let parameterSwitchState ← taskData.parametersValues.at taskLedSwitchParameterSwitchState
  if parameterSwitchState = "on" then
    gpioSetLevel pinLedTest 1
  else if parameterSwitchState = "off" then
    gpioSetLevel pinLedTest 0
  else
    Exec.emit (.espLogW ("Unknown switch state: " ++ parameterSwitchState))
  enqueueTaskProgressUpdate ⟨getUid, taskData.taskUid, parameterSwitchState, 0, ""⟩

end TaskLedSwitch

namespace TaskLedSlider

def getUid : Int := taskLedSlider

def constructor : TaskM Unit := gpioSetLevel pinLedTest 0

/-- The duty, clamped to `0..255`; the LEDC timer and channel settings are left out. -/
def analogWrite (pin : GpioNum) (value : Int) : TaskM Unit :=
  Exec.emit (.ledcSetDuty pin (CInt.clamp value 0 255))

def executeTask (taskData : SimpleTaskData) : TaskM Unit := do
  let parameterSliderState ← taskData.parametersValues.at taskLedSliderParameterSliderState
  let parameterSliderValue := CString.atoi parameterSliderState
  -- an `int` product, which the clamp in `analogWrite` comes too late for
  let scaled ← mulInt 255 parameterSliderValue
  analogWrite pinLedTest (scaled.tdiv 100)
  enqueueTaskProgressUpdate ⟨getUid, taskData.taskUid, parameterSliderState, 0, ""⟩

end TaskLedSlider

end CroniotWatering
