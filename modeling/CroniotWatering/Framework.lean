import CroniotWatering.Library.CString
import Mathlib.Data.Rat.Defs

set_option autoImplicit false

/-! # What the tasks are written against

The task and sensor identifiers (`Sensors/SensorDefs.h`), the messages and progress updates the tasks
exchange with the framework, the GPIO pins they drive, and the effects their code can have. A task's
code is a traced computation `TaskM`: none of the five reads a pin, so what it does is determined by
its message.

`ESP_LOGI` lines are left out; warnings and errors are kept. `gpio_config` has no effect on a pin's
level and is left out too: the pins the OTA gate reads are configured as `INPUT_OUTPUT`, so a read
gives the level written last. -/

namespace CroniotWatering

/-! ## `SensorDefs.h` -/

def taskWaterPlants : Int := 1
def taskWaterPlantsParameterDuration : Int := 1
def taskLedTest : Int := 2
def taskLedSwitch : Int := 3
def taskLedSwitchParameterSwitchState : Int := 1
def taskRelaySwitchParameterSwitchState : Int := 1
def taskWaterPumpSwitch : Int := 5
def taskLedSlider : Int := 6
def taskLedSliderParameterSliderState : Int := 1

/-! ## Messages -/

/-- `std::map<int, std::string>`: the entries in key order, one a key. -/
structure ParametersValues where
  entries : List (Int × String)
  /-- Keys are strictly increasing. -/
  sorted : entries.Pairwise fun x y => x.1 < y.1

/-- `map::find`. -/
def ParametersValues.find (p : ParametersValues) (key : Int) : Option String :=
  p.entries.lookup key

/-- The map with one entry. -/
def ParametersValues.single (key : Int) (value : String) : ParametersValues :=
  ⟨[(key, value)], List.pairwise_singleton _ _⟩

/-- A request, as the framework queues it for a task. -/
structure SimpleTaskData where
  taskUid : Int
  parametersValues : ParametersValues

/-- An answer to a request: its state, and how far along it is in percent. -/
structure TaskProgressUpdate where
  taskTypeUid : Int
  taskUid : Int
  state : String
  progress : ℚ
  errorMessage : String
deriving DecidableEq

/-! ## Effects -/

/-- The GPIO numbers the code names; `nc` is `GPIO_NUM_NC`, no pin at all. -/
inductive GpioNum where
  | nc
  | num2
  | num4
  | num5
  | num18
deriving DecidableEq

/-- What ends a task's code early. The firmware is built without C++ exceptions, so each of the two
    throwing library calls ends in `std::terminate`; signed overflow is undefined. -/
inductive Fault where
  /-- `std::map::at` on an absent key. -/
  | mapAt (key : Int)
  /-- `std::stoi` on a string it rejects. -/
  | stoi (e : CString.ParseError)
  /-- An `int` operation out of range. -/
  | intOverflow
deriving DecidableEq

/-- The fault is an exception that nobody can catch. -/
def Fault.isThrow : Fault → Bool
  | .mapAt _ | .stoi _ => true
  | .intOverflow => false

inductive Action where
  | gpioSetLevel (pin : GpioNum) (level : Int)
  | ledcSetDuty (pin : GpioNum) (duty : Int)
  /-- `vTaskDelay` puts the task to sleep ... -/
  | delayBegin (millis : Int)
  /-- ... and wakes it up when the time has passed. -/
  | delayEnd (millis : Int)
  | enqueueTaskProgressUpdate (update : TaskProgressUpdate)
  /-- `croniot::task::step`: an auditable record of one physical step. -/
  | taskStep (taskUid : Int) (name : String) (ok : Bool)
  /-- `croniot::log::event` at level `Error`. -/
  | logEvent (name : String) (fields : List (String × String))
  | espLogE (text : String)
  | espLogW (text : String)
  /-- The code faulted: the board resets. -/
  | terminate (f : Fault)
deriving DecidableEq

abbrev TaskM := Exec Fault Action

/-- The levels last written to the pins. -/
abbrev Levels := GpioNum → Int

/-- What an action does to the pins. -/
def Action.apply : Action → Levels → Levels
  | .gpioSetLevel pin level, levels => Function.update levels pin level
  | _, levels => levels

/-- After a fault nothing runs any more. -/
def Action.halts : Action → Bool
  | .terminate _ => true
  | _ => false

/-- The actions of a task's code, a fault included. -/
def TaskM.actions (x : TaskM Unit) : List Action :=
  match x.result with
  | .ok _ => x.trace
  | .error f => x.trace ++ [.terminate f]

/-! ## The calls the tasks make -/

def gpioSetLevel (pin : GpioNum) (level : Int) : TaskM Unit :=
  Exec.emit (.gpioSetLevel pin level)

/-- `TaskController::instance().enqueueTaskProgressUpdate`. -/
def enqueueTaskProgressUpdate (update : TaskProgressUpdate) : TaskM Unit :=
  Exec.emit (.enqueueTaskProgressUpdate update)

/-- `vTaskDelay(pdMS_TO_TICKS(millis))`. -/
def vTaskDelay (millis : Int) : TaskM Unit := do
  Exec.emit (.delayBegin millis)
  Exec.emit (.delayEnd millis)

/-- `croniot::task::step`. -/
def taskStep (taskUid : Int) (name : String) (ok : Bool) : TaskM Unit :=
  Exec.emit (.taskStep taskUid name ok)

/-- `std::map::at`. -/
def ParametersValues.at (p : ParametersValues) (key : Int) : TaskM String :=
  match p.find key with
  | some value => pure value
  | none => Exec.fault (.mapAt key)

/-- `std::stoi`. -/
def stoi (s : String) : TaskM Int :=
  match CString.stoi s with
  | .ok v => pure v
  | .error e => Exec.fault (.stoi e)

/-- `a + b` on `int`. -/
def addInt (a b : Int) : TaskM Int := CInt.add .intOverflow a b

/-- An addition that stays within `int`. -/
theorem addInt_eq {a b c : Int} (hc : a + b = c) (lo : -2147483648 ≤ c) (hi : c ≤ 2147483647) :
    addInt a b = ⟨[], .ok c⟩ := by
  subst hc
  exact CInt.add_of_inRange _ (CInt.inRange_of_bounds lo hi)

/-- `a * b` on `int`. -/
def mulInt (a b : Int) : TaskM Int := CInt.mul .intOverflow a b

/-! ## The code of a switch

Two of the tasks do the same, each with its own pin: they look a state string up, set the pin as it says
or warn, and report it. -/

/-- What a switch does for a state string. -/
def switchAction (pin : GpioNum) (onLevel offLevel : Int) (warning state : String) : Action :=
  if state = "on" then .gpioSetLevel pin onLevel
  else if state = "off" then .gpioSetLevel pin offLevel
  else .espLogW (warning ++ state)

/-- The code of a switch, in closed form. -/
theorem actions_switch (p : ParametersValues) (key : Int) (pin : GpioNum) (onLevel offLevel : Int)
    (warning : String) (update : String → TaskProgressUpdate) :
    TaskM.actions (p.at key >>= fun state =>
      if state = "on" then
        gpioSetLevel pin onLevel >>= fun _ => enqueueTaskProgressUpdate (update state)
      else if state = "off" then
        gpioSetLevel pin offLevel >>= fun _ => enqueueTaskProgressUpdate (update state)
      else
        Exec.emit (.espLogW (warning ++ state)) >>= fun _ => enqueueTaskProgressUpdate (update state))
      = match p.find key with
        | none => [.terminate (.mapAt key)]
        | some state =>
            [switchAction pin onLevel offLevel warning state,
              .enqueueTaskProgressUpdate (update state)] := by
  unfold ParametersValues.at
  cases p.find key with
  | none => rfl
  | some state =>
      simp only [Exec.pure_eq, Exec.ok_bind, switchAction]
      split
      · rfl
      · split <;> rfl

end CroniotWatering
