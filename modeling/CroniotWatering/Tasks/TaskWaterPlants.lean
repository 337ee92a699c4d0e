import CroniotWatering.Library.Rounding
import CroniotWatering.Tasks.WaterSequenceController

set_option autoImplicit false

/-! # The watering task

`Tasks/TaskWaterPlantsLogic.cpp` and `Tasks/TaskWaterPlants.cpp`. A percentage is an exact rational
where the source has a `float`. -/

namespace CroniotWatering

namespace TaskWaterPlantsLogic

def kOpenTimeMillis : Int := 8000
def kCloseDelayMillis : Int := 1000
def kCloseTimeMillis : Int := 8000

def kMinDurationSeconds : Int := 1
def kMaxDurationSeconds : Int := 600

def computeTotalDurationMillis (wateringDurationMillis : Int) : TaskM Int := do
  let opened ← addInt kOpenTimeMillis wateringDurationMillis
  let stopped ← addInt opened kCloseDelayMillis
  addInt stopped kCloseTimeMillis

/-- Percentage of the total elapsed, rounded to 2 decimals. -/
def computeProgress (elapsedMillis totalDurationMillis : Int) : ℚ :=
  if totalDurationMillis ≤ 0 then 0
  else
    let progress : ℚ := elapsedMillis * 100 / totalDurationMillis
    stdRound (progress * 100) / 100

/-- `none` is the source's `std::nullopt`, whichever way `std::from_chars` failed. -/
def parseDurationSeconds (durationParam : String) : Option Int :=
  if durationParam.isEmpty then none
  else
    match CString.fromChars durationParam with
    | .ok value => some value
    | .error _ => none

def clampDurationSeconds (rawSeconds : Int) : Int :=
  CInt.clamp rawSeconds kMinDurationSeconds kMaxDurationSeconds

end TaskWaterPlantsLogic

namespace TaskWaterPlants

open TaskWaterPlantsLogic WaterSequenceController

def pinWaterPump : GpioNum := .num4
def pinElectricValve1 : GpioNum := .num5
def pinElectricValve2 : GpioNum := .num18

def getUid : Int := taskWaterPlants

def gpioDriver : IWaterGpioDriver :=
  esp32WaterGpioDriver pinWaterPump pinElectricValve1 pinElectricValve2

/-- The pin writes of the constructor. -/
def constructor : TaskM Unit := driveToSafeState gpioDriver

/-- `sendProgress`, the lambda of `executeTask`. -/
def sendProgress (taskUid totalDuration elapsedMillis : Int) : TaskM Unit :=
  enqueueTaskProgressUpdate
    ⟨getUid, taskUid, "RUNNING", computeProgress elapsedMillis totalDuration, ""⟩

/-- What the last of the four loops sends instead. -/
def sendClosingProgress (taskUid totalDuration elapsedMillis : Int) : TaskM Unit :=
  let progress := computeProgress elapsedMillis totalDuration
  if progress < 100 then
    enqueueTaskProgressUpdate ⟨getUid, taskUid, "RUNNING", progress, ""⟩
  else
    enqueueTaskProgressUpdate ⟨getUid, taskUid, "COMPLETED", 100, ""⟩

/-- One of the four loops, `for (int i = 0; i < millis; i += 1000)`, with what it reports each second;
    the loop state is `elapsed`. -/
def delayLoop (millis : Int) (report : Int → TaskM Unit) (elapsed : Int) : TaskM Int :=
  Exec.forLoop CInt.maxValue .intOverflow (fun i => i < millis) 1000
    (fun _ elapsed => do
      vTaskDelay 1000
      let elapsed ← addInt elapsed 1000
      report elapsed
      pure elapsed)
    0 elapsed

/-- The part of `executeTask` after its validation; returns the last value of `elapsed`. -/
def runSequence (taskUid durationSeconds : Int) : TaskM Int := do
  let wateringDurationMillis ← mulInt durationSeconds 1000
  let totalDuration ← computeTotalDurationMillis wateringDurationMillis
  openWaterValve gpioDriver
  taskStep taskUid "valve_open" true
  let elapsed ← delayLoop kOpenTimeMillis (sendProgress taskUid totalDuration) 0
  startWatering gpioDriver
  taskStep taskUid "watering_start" true
  let elapsed ← delayLoop wateringDurationMillis (sendProgress taskUid totalDuration) elapsed
  stopWatering gpioDriver
  taskStep taskUid "watering_stop" true
  let elapsed ← delayLoop kCloseDelayMillis (sendProgress taskUid totalDuration) elapsed
  closeWaterValve gpioDriver
  taskStep taskUid "valve_close" true
  delayLoop kCloseTimeMillis (sendClosingProgress taskUid totalDuration) elapsed

def executeTask (taskData : SimpleTaskData) : TaskM Unit := do
  enqueueTaskProgressUpdate ⟨getUid, taskData.taskUid, "RUNNING", 0, ""⟩
  let parameterDuration := taskWaterPlantsParameterDuration
  match taskData.parametersValues.find parameterDuration with
  | none =>
      Exec.emit (.espLogE ("Key not found: " ++ toString parameterDuration))
      Exec.emit (.logEvent "task_param_missing"
        [("taskUid", toString taskData.taskUid), ("param", toString parameterDuration)])
  | some value =>
      match parseDurationSeconds value with
      | none => Exec.emit (.espLogE ("Invalid duration value: " ++ value))
      | some parsedSeconds =>
          let _elapsed ← runSequence taskData.taskUid (clampDurationSeconds parsedSeconds)

/-- `loop`, once for every message of a queue. -/
def loop : List SimpleTaskData → TaskM Unit
  | [] => pure ()
  | taskData :: queue => do
      executeTask taskData
      loop queue

end TaskWaterPlants

end CroniotWatering
