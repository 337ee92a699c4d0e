import CroniotWatering.Tasks.WaterSequenceController

set_option autoImplicit false

/-! # The pump switch

`Tasks/TaskWaterPumpSwitch.cpp`: a second task on the pump pin of the watering task, with no valve
coordination between them. -/

namespace CroniotWatering.TaskWaterPumpSwitch

def pinWaterPump : GpioNum := .num4

def getUid : Int := taskWaterPumpSwitch

def gpioDriver : IWaterGpioDriver := esp32WaterGpioDriver pinWaterPump .nc .nc

/-- The pin write of the constructor: off, which is high for an active-low relay. -/
def constructor : TaskM Unit := gpioDriver.setPumpLevel 1

def executeTask (taskData : SimpleTaskData) : TaskM Unit := do
  let state ← taskData.parametersValues.at taskRelaySwitchParameterSwitchState
  if state = "on" then
    gpioDriver.setPumpLevel 0
  else if state = "off" then
    gpioDriver.setPumpLevel 1
  else
    Exec.emit (.espLogW ("Unknown state: " ++ state))
  enqueueTaskProgressUpdate ⟨getUid, taskData.taskUid, state, 0, ""⟩

/-! ## In closed form -/

theorem actions_eq (taskData : SimpleTaskData) :
    (executeTask taskData).actions
      = match taskData.parametersValues.find taskRelaySwitchParameterSwitchState with
        | none => [.terminate (.mapAt taskRelaySwitchParameterSwitchState)]
        | some state =>
            [switchAction pinWaterPump 0 1 "Unknown state: " state,
              .enqueueTaskProgressUpdate ⟨getUid, taskData.taskUid, state, 0, ""⟩] :=
  actions_switch _ _ _ _ _ _ _

/-- The command of a message: its state string, if that is one of the two the task recognises. -/
def commandOf (taskData : SimpleTaskData) : Option String :=
  (taskData.parametersValues.find taskRelaySwitchParameterSwitchState).filter fun state =>
    state = "on" || state = "off"

/-- The task writes the pump pin only, and only on a command. -/
theorem commandOf_of_write {taskData : SimpleTaskData} {pin : GpioNum} {level : Int}
    (h : Action.gpioSetLevel pin level ∈ (executeTask taskData).actions) :
    pin = pinWaterPump ∧
      ((level = 0 ∧ commandOf taskData = some "on") ∨
        (level = 1 ∧ commandOf taskData = some "off")) := by
  rw [actions_eq] at h
  unfold commandOf
  cases hfind : taskData.parametersValues.find taskRelaySwitchParameterSwitchState with
  | none =>
      rw [hfind] at h
      cases List.mem_singleton.1 h
  | some state =>
      rw [hfind] at h
      rcases List.mem_cons.1 h with h | h
      · unfold switchAction at h
        split at h
        · next hon =>
            cases h
            exact ⟨rfl, Or.inl ⟨rfl, by simp [hon]⟩⟩
        · split at h
          · next hoff =>
              cases h
              exact ⟨rfl, Or.inr ⟨rfl, by simp [hoff]⟩⟩
          · cases h
      · cases List.mem_singleton.1 h

/-- On a command, the first thing the task does is to write the pin. -/
theorem actions_of_commandOf {taskData : SimpleTaskData} {command : String}
    (h : commandOf taskData = some command) :
    ∃ level todo, (executeTask taskData).actions = .gpioSetLevel pinWaterPump level :: todo := by
  obtain ⟨hfind, hcommand⟩ := Option.filter_eq_some_iff.1 h
  rw [actions_eq, hfind]
  simp only [Bool.or_eq_true, decide_eq_true_eq] at hcommand
  rcases hcommand with rfl | rfl
  · exact ⟨0, _, rfl⟩
  · exact ⟨1, _, rfl⟩

end CroniotWatering.TaskWaterPumpSwitch
