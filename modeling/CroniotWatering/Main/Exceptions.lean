import CroniotWatering.Main.Firmware
import CroniotWatering.Tasks.LedTasks.LedTest
import CroniotWatering.Tasks.TaskWaterPlants.Trace

set_option autoImplicit false

/-! # Which messages abort the controller

Without C++ exceptions, a throwing `std::map::at` or `std::stoi` ends in `std::terminate`. Only the
watering task looks its parameter up with `find` and parses it with `from_chars`; the other four
abort on a message without the parameter, and the LED test also on one it cannot parse. -/

namespace CroniotWatering

/-- The code ends in an exception. -/
def TaskM.Throws {α : Type} (x : TaskM α) : Prop :=
  ∃ f, x.result = .error f ∧ f.isThrow = true

/-! ## Code that does not throw -/

/-- Every fault is something other than an exception. -/
abbrev TaskM.NoThrow {α : Type} (x : TaskM α) : Prop :=
  x.FaultsIn fun f => f.isThrow = false

theorem TaskM.NoThrow.not_throws {α : Type} {x : TaskM α} (hx : x.NoThrow) : ¬ x.Throws := by
  rintro ⟨f, hf, hthrow⟩
  rw [hx f hf] at hthrow
  cases hthrow

theorem noThrow_enqueue (update : TaskProgressUpdate) :
    (enqueueTaskProgressUpdate update).NoThrow := nofun

theorem noThrow_gpioSetLevel (pin : GpioNum) (level : Int) : (gpioSetLevel pin level).NoThrow :=
  nofun

/-- What the two switch tasks do with a state: set the pin or warn, and report the state. -/
theorem noThrow_switch (state : String) (pin : GpioNum) (on off : Int) (warning : Action)
    (update : TaskProgressUpdate) :
    TaskM.NoThrow (
      if state = "on" then gpioSetLevel pin on >>= fun _ => enqueueTaskProgressUpdate update
      else if state = "off" then gpioSetLevel pin off >>= fun _ => enqueueTaskProgressUpdate update
      else Exec.emit warning >>= fun _ => enqueueTaskProgressUpdate update) := by
  split
  · exact (noThrow_gpioSetLevel _ _).bind fun _ => noThrow_enqueue _
  · split
    · exact (noThrow_gpioSetLevel _ _).bind fun _ => noThrow_enqueue _
    · exact (Exec.faultsIn_ok _ _).bind fun _ => noThrow_enqueue _

theorem noThrow_mulInt (a b : Int) : (mulInt a b).NoThrow := by
  unfold mulInt CInt.mul CInt.checked
  split
  · exact nofun
  · exact Exec.faultsIn_fault rfl

/-! ## Looking a parameter up -/

/-- What follows `map::at` runs if the key is there; without the key the code throws. -/
theorem throws_at_bind {p : ParametersValues} {key : Int} {f : String → TaskM Unit} :
    (p.at key >>= f).Throws ↔ p.find key = none ∨ ∃ value, p.find key = some value ∧ (f value).Throws := by
  unfold ParametersValues.at
  cases hfind : p.find key with
  | none => simp [TaskM.Throws, Fault.isThrow]
  | some value => simp [TaskM.Throws]

/-- If nothing after the lookup throws, the key alone decides. -/
theorem not_throws_at_bind {p : ParametersValues} {key : Int} {f : String → TaskM Unit}
    (hf : ∀ value, (f value).NoThrow) : ¬ (p.at key >>= f).Throws ↔ ∃ value, p.find key = some value := by
  rw [throws_at_bind]
  refine ⟨fun h => ?_, ?_⟩
  · exact Option.ne_none_iff_exists'.1 fun hnone => h (Or.inl hnone)
  · rintro ⟨value, hvalue⟩ (hnone | ⟨value', -, hthrows⟩)
    · rw [hvalue] at hnone
      cases hnone
    · exact (hf value').not_throws hthrows

theorem not_throws_stoi_bind {s : String} {f : Int → TaskM Unit} (hf : ∀ v, (f v).NoThrow) :
    ¬ (stoi s >>= f).Throws ↔ ∃ v, CString.stoi s = .ok v := by
  unfold stoi
  cases hparse : CString.stoi s with
  | error e => simp [TaskM.Throws, Fault.isThrow]
  | ok v => simpa using (hf v).not_throws

/-! ## The five tasks -/

/-- The messages a task handles without aborting. -/
def TaskId.Tolerates : TaskId → ParametersValues → Prop
  | .waterPlants, _ => True
  | .ledTest, p => ∃ value, p.find 1 = some value ∧ ∃ v, CString.stoi value = .ok v
  | _, p => ∃ value, p.find 1 = some value

theorem TaskWaterPlants.not_throws (taskData : SimpleTaskData) :
    ¬ (TaskWaterPlants.executeTask taskData).Throws := by
  rw [TaskWaterPlants.executeTask_eq]
  exact TaskM.NoThrow.not_throws (Exec.faultsIn_ok _ _)

theorem TaskWaterPumpSwitch.not_throws_iff (taskData : SimpleTaskData) :
    ¬ (TaskWaterPumpSwitch.executeTask taskData).Throws
      ↔ ∃ value, taskData.parametersValues.find 1 = some value :=
  not_throws_at_bind fun state => noThrow_switch state _ _ _ _ _

theorem TaskLedSwitch.not_throws_iff (taskData : SimpleTaskData) :
    ¬ (TaskLedSwitch.executeTask taskData).Throws
      ↔ ∃ value, taskData.parametersValues.find 1 = some value :=
  not_throws_at_bind fun state => noThrow_switch state _ _ _ _ _

/-- `atoi` reads anything, and an overflow is not an exception. -/
theorem TaskLedSlider.not_throws_iff (taskData : SimpleTaskData) :
    ¬ (TaskLedSlider.executeTask taskData).Throws
      ↔ ∃ value, taskData.parametersValues.find 1 = some value := by
  refine not_throws_at_bind fun state => ?_
  refine Exec.FaultsIn.bind (noThrow_mulInt _ _) fun scaled => ?_
  exact Exec.FaultsIn.bind (Exec.faultsIn_ok _ _) fun _ => noThrow_enqueue _

/-- What the LED test does once it has its duration: at worst its loop overflows. -/
theorem TaskLedTest.noThrow_test (taskUid durationSeconds : Int) :
    TaskM.NoThrow (do
      gpioSetLevel pinLedTest 1
      testLoop taskUid durationSeconds
      gpioSetLevel pinLedTest 0
      enqueueTaskProgressUpdate (completedUpdate taskUid)) := by
  refine Exec.FaultsIn.bind (noThrow_gpioSetLevel _ _) fun _ => ?_
  refine Exec.FaultsIn.bind (Exec.FaultsIn.forLoop (by rfl) (fun i _ => ?_) _ _) fun _ => ?_
  · exact Exec.FaultsIn.bind (noThrow_enqueue _) fun _ => Exec.faultsIn_ok _ _
  · exact Exec.FaultsIn.bind (noThrow_gpioSetLevel _ _) fun _ => noThrow_enqueue _

theorem TaskLedTest.not_throws_iff (taskData : SimpleTaskData) :
    ¬ (TaskLedTest.executeTask taskData).Throws
      ↔ ∃ value, taskData.parametersValues.find 1 = some value ∧
          ∃ v, CString.stoi value = .ok v := by
  have htest := TaskLedTest.noThrow_test taskData.taskUid
  have henqueue : (TaskLedTest.executeTask taskData).Throws
      ↔ (taskData.parametersValues.at taskWaterPlantsParameterDuration >>= fun durationStr =>
          stoi durationStr >>= _).Throws := Iff.rfl
  rw [henqueue, throws_at_bind]
  simp only [not_or, not_exists, not_and]
  constructor
  · rintro ⟨hsome, hparse⟩
    obtain ⟨value, hvalue⟩ := Option.ne_none_iff_exists'.1 hsome
    exact ⟨value, hvalue, (not_throws_stoi_bind htest).1 (hparse value hvalue)⟩
  · rintro ⟨value, hvalue, hparse⟩
    refine ⟨?_, fun value' hvalue' => ?_⟩
    · intro hnone
      exact absurd (hvalue.symm.trans hnone) nofun
    · rw [Option.some.inj (hvalue'.symm.trans hvalue)]
      exact (not_throws_stoi_bind htest).2 hparse

/-- **Which messages abort the controller.** A task's code ends in an exception exactly on the
    messages it does not tolerate. -/
theorem not_throws_iff_tolerates (t : TaskId) (taskData : SimpleTaskData) :
    ¬ (t.executeTask taskData).Throws ↔ t.Tolerates taskData.parametersValues := by
  cases t with
  | waterPlants => exact iff_of_true (TaskWaterPlants.not_throws taskData) trivial
  | waterPumpSwitch => exact TaskWaterPumpSwitch.not_throws_iff taskData
  | ledTest => exact TaskLedTest.not_throws_iff taskData
  | ledSwitch => exact TaskLedSwitch.not_throws_iff taskData
  | ledSlider => exact TaskLedSlider.not_throws_iff taskData

/-- A pump-switch message without parameters does: `map::at` has no entry to return. -/
theorem throws_pumpSwitch_empty :
    ¬ ∀ (t : TaskId) (taskData : SimpleTaskData), ¬ (t.executeTask taskData).Throws := by
  intro h
  refine h .waterPumpSwitch ⟨7, ⟨[], List.Pairwise.nil⟩⟩ ?_
  exact ⟨.mapAt 1, rfl, rfl⟩

end CroniotWatering
