import CroniotWatering.Library.Registers
import CroniotWatering.Main.Pump
import CroniotWatering.Tasks.LedTasks.LedTest

set_option autoImplicit false

/-! # What a switch reports, and what its output does

Each of the two switches shares its output with a second task: the pump switch with the watering task,
the LED switch with the LED test. There is no coordination between the two, and only the switch reports
a state. Both of the other tasks leave the output off, so that a reported `off` is always right, and a
reported `on` is right until the other task has used the output. -/

namespace CroniotWatering

open TaskSystem

/-- The two outputs that a switch shares with another task. -/
inductive Actuator where
  | pump
  | led
deriving DecidableEq

namespace Actuator

def switch : Actuator → TaskId
  | .pump => .waterPumpSwitch
  | .led => .ledSwitch

def other : Actuator → TaskId
  | .pump => .waterPlants
  | .led => .ledTest

def pin : Actuator → GpioNum
  | .pump => TaskWaterPlants.pinWaterPump
  | .led => pinLedTest

/-- The pump relay is active-low, the LED is not. -/
def onLevel : Actuator → Int
  | .pump => 0
  | .led => 1

def offLevel : Actuator → Int
  | .pump => 1
  | .led => 0

def uid : Actuator → Int
  | .pump => taskWaterPumpSwitch
  | .led => taskLedSwitch

/-- The parameter with the state string. -/
def parameter : Actuator → Int
  | .pump => taskRelaySwitchParameterSwitchState
  | .led => taskLedSwitchParameterSwitchState

/-- The warning for a string that is neither `on` nor `off`. -/
def warning : Actuator → String
  | .pump => "Unknown state: "
  | .led => "Unknown switch state: "

variable (A : Actuator)

/-- The state string of a message. -/
def stateOf (m : SimpleTaskData) : Option String := m.parametersValues.find A.parameter

/-- The action a state string asks for. -/
def stateAction : String → Action := switchAction A.pin A.onLevel A.offLevel A.warning

/-- The code of a switch for a message. -/
def switchActions (m : SimpleTaskData) : List Action :=
  match A.stateOf m with
  | none => [.terminate (.mapAt A.parameter)]
  | some state =>
      [A.stateAction state, .enqueueTaskProgressUpdate ⟨A.uid, m.taskUid, state, 0, ""⟩]

/-- A switch that finds its parameter does not halt the board. -/
theorem halts_switchActions {m : SimpleTaskData} {state : String} (hstate : A.stateOf m = some state) :
    ∀ a ∈ A.switchActions m, a.halts = false := by
  rw [switchActions, hstate]
  intro a ha
  rcases List.mem_cons.1 ha with rfl | ha
  · unfold stateAction switchAction
    split
    · rfl
    · split <;> rfl
  · rw [List.mem_singleton.1 ha]
    rfl

theorem actions_ledSwitch (m : SimpleTaskData) :
    (TaskLedSwitch.executeTask m).actions = led.switchActions m :=
  actions_switch _ _ _ _ _ _ _

/-- Both switches are this code. -/
theorem handle_switch (m : SimpleTaskData) :
    (firmware.task A.switch).handle m = A.switchActions m := by
  cases A with
  | pump => exact TaskWaterPumpSwitch.actions_eq m
  | led => exact actions_ledSwitch m

/-! ## Writes of the output -/

/-- The level an action writes to the output. -/
def write : Action → Option Int := pinWrite A.pin

/-- Constructors leave the output off if they write it. -/
theorem write_construct {t : TaskId} {a : Action} (ha : a ∈ (firmware.task t).construct) :
    A.write a = none ∨ A.write a = some A.offLevel := by
  revert a
  cases A <;> cases t <;> decide

/-! ## Who writes the output -/

/-- The watering task writes none but its own three pins. -/
theorem pin_of_waterPlants {m : SimpleTaskData} {pin : GpioNum} {level : Int}
    (h : Action.gpioSetLevel pin level ∈ (TaskWaterPlants.executeTask m).actions) :
    pin ≠ pinLedTest := by
  cases hop : TaskWaterPlants.opOf (.gpioSetLevel pin level) with
  | none => cases TaskWaterPlants.covered_actions m _ h hop
  | some op =>
      have heq := (TaskWaterPlants.opOf_classifies _ op).1 hop
      cases op <;> cases heq <;> decide

/-- The slider sets a duty, and no level. -/
theorem no_write_of_ledSlider {m : SimpleTaskData} {pin : GpioNum} {level : Int} :
    Action.gpioSetLevel pin level ∉ (TaskLedSlider.executeTask m).actions := by
  unfold TaskLedSlider.executeTask ParametersValues.at
  cases m.parametersValues.find taskLedSliderParameterSliderState with
  | none => simp [TaskM.actions]
  | some state =>
      simp only [Exec.pure_eq, Exec.ok_bind, mulInt, CInt.mul, CInt.checked]
      split
      · simp [TaskM.actions, TaskLedSlider.analogWrite, enqueueTaskProgressUpdate]
      · simp [TaskM.actions]

/-- After boot, the switch and the other task are the only ones to write the output. -/
theorem writer {t : TaskId} {m : SimpleTaskData} {a : Action} {level : Int}
    (ha : a ∈ (firmware.task t).handle m) (hw : A.write a = some level) :
    t = A.switch ∨ t = A.other := by
  have hwrite := pinWrite_eq_some.1 hw
  subst hwrite
  cases t with
  | ledSlider => exact absurd ha no_write_of_ledSlider
  | waterPlants =>
      cases A with
      | pump => exact Or.inr rfl
      | led => exact absurd rfl (pin_of_waterPlants ha)
  | waterPumpSwitch =>
      cases A with
      | pump => exact Or.inl rfl
      | led => cases (TaskWaterPumpSwitch.commandOf_of_write ha).1
  | ledSwitch =>
      cases A with
      | pump => cases (TaskLedSwitch.writesOnly m).actions ha
      | led => exact Or.inl rfl
  | ledTest =>
      cases A with
      | pump => cases (TaskLedTest.writesOnly m).actions ha
      | led => exact Or.inr rfl

/-- Code that halts nothing runs to its end. -/
theorem ok_of_quiet {x : TaskM Unit} (hquiet : ∀ a ∈ x.actions, a.halts = false) :
    x.result = .ok () ∧ x.actions = x.trace := by
  obtain ⟨trace, result⟩ := x
  cases result with
  | ok _ => exact ⟨rfl, rfl⟩
  | error f => exact absurd (hquiet (.terminate f) (List.mem_concat_self ..)) (by simp [Action.halts])

/-- A task that waits has left the output of its LED off. -/
theorem ledTest_off {σ₀ : Levels} {h : Firmware.History} {s : Firmware.State}
    (hrun : firmware.Run σ₀ h s) (hw : s.thread .ledTest = .waiting) {level : Int}
    (hlevel : (acts .ledTest h).findSome? led.write = some level) : level = led.offLevel := by
  have hquiet := System.Run.quiet_of_waiting hrun hw
  rw [System.Run.acts_of_waiting hrun hw] at hlevel hquiet
  cases hrec : received .ledTest h with
  | nil =>
      rw [hrec] at hlevel
      cases hlevel
  | cons m older =>
      rw [hrec, List.flatMap_cons] at hlevel hquiet
      -- the latest message has been handled to the end, and the end is a write
      obtain ⟨hok, hactions⟩ := @ok_of_quiet (TaskLedTest.executeTask m) fun a ha =>
        hquiet a (List.mem_append_left _ (List.mem_reverse.2 ha))
      obtain ⟨as, htrace⟩ := TaskLedTest.exists_closing hok
      have hhandle : (firmware.task .ledTest).handle m = as ++ TaskLedTest.closing m.taskUid :=
        hactions.trans htrace
      rw [hhandle, List.reverse_append, List.append_assoc, List.findSome?_append] at hlevel
      have hclosing : (TaskLedTest.closing m.taskUid).reverse.findSome? led.write = some 0 := rfl
      rw [hclosing] at hlevel
      exact (Option.some.inj hlevel).symm

/-- The same for the pump, by the phase of the watering. -/
theorem waterPlants_off {σ₀ : Levels} {h : Firmware.History} {s : Firmware.State}
    (hrun : firmware.Run σ₀ h s) (hw : s.thread .waterPlants = .waiting) {level : Int}
    (hlevel : (acts .waterPlants h).findSome? pump.write = some level) : level = pump.offLevel := by
  have hwrites : pump.write = Firmware.pumpWrite := rfl
  obtain ⟨p, hp⟩ := Firmware.exists_phase hrun (Firmware.constructed_of_waiting hrun hw)
  have hwindow : ¬ Firmware.LastPumpedOn h := by
    rw [hp.lastPumpedOn_iff hrun, hp.of_waiting hw]
    exact nofun
  rw [hwrites] at hlevel
  rw [Firmware.LastPumpedOn, hlevel] at hwindow
  rw [Firmware.findSome?_pumpWrite (Firmware.covered_acts hrun)] at hlevel
  obtain ⟨on, -, rfl⟩ := Option.map_eq_some_iff.1 hlevel
  cases on with
  | true => exact absurd rfl hwindow
  | false => rfl

theorem other_off {σ₀ : Levels} {h : Firmware.History} {s : Firmware.State}
    (hrun : firmware.Run σ₀ h s) (hw : s.thread A.other = .waiting) {level : Int}
    (hlevel : (acts A.other h).findSome? A.write = some level) : level = A.offLevel := by
  cases A with
  | pump => exact waterPlants_off hrun hw hlevel
  | led => exact ledTest_off hrun hw hlevel

/-! ## The level of the output -/

/-- With the other task waiting, the output is off unless the switch was the last to write it. -/
theorem level_eq {σ₀ : Levels} {h : Firmware.History} {s : Firmware.State}
    (hrun : firmware.Run σ₀ h s) (hother : s.thread A.other = .waiting) {value : Int}
    (hvalue : (acts A.switch h).findSome? A.write = some value) :
    s.store A.pin = if lastWriter A.write h = some A.switch then value else A.offLevel := by
  have hstore : s.store A.pin
      = ((latestWrite A.write h).bind fun e => e.written A.write).getD (σ₀ A.pin) := by
    rw [System.Run.store_eq hrun]
    exact System.storeAfter_register (fun levels : Levels => levels A.pin) (apply_pinWrite A.pin) h
  rw [hstore]
  cases hlatest : latestWrite A.write h with
  | none => exact absurd hlatest (latestWrite_ne_none hvalue)
  | some e =>
      obtain ⟨he, level, hlevel⟩ := mem_of_latestWrite hlatest
      have hwriter : lastWriter A.write h = e.owner := by simp [lastWriter, hlatest]
      simp only [Option.bind_some, hlevel, Option.getD_some, hwriter]
      cases e with
      | construct t a =>
          have hwrite : A.write a = some level := hlevel
          -- all constructors that write the output write its off level
          rcases A.write_construct (System.Run.mem_construct hrun he) with hnone | hoff
          · rw [hwrite] at hnone
            cases hnone
          · rw [hwrite] at hoff
            simpa [Event.owner] using hoff
      | act t m a =>
          have hwrite : A.write a = some level := hlevel
          have hlast := findSome?_acts_of_latestWrite hlatest
          rw [hwrite] at hlast
          -- the switch: its own last write; the other task: it waits, and has left the output off
          rcases A.writer (System.Run.mem_handle hrun he) hwrite with rfl | rfl
          · rw [hvalue] at hlast
            simpa [Event.owner] using (Option.some.inj hlast).symm
          · have hne : A.other ≠ A.switch := by
              cases A <;> decide
            simpa [Event.owner, hne] using A.other_off hrun hother hlast
      | start | receive | finish => cases hlevel

/-! ## The reported state -/

/-- The state of the last update the switch enqueued for a message. -/
def reportedState (h : Firmware.History) : Option String :=
  ((acts A.switch h).findSome? TaskWaterPlants.enqueuedUpdate).map (·.state)

/-- The reported state is `on` exactly if the output is on, and `off` exactly if it is off. -/
def Agrees (h : Firmware.History) (s : Firmware.State) : Prop :=
  (A.reportedState h = some "on" ↔ s.store A.pin = A.onLevel) ∧
    (A.reportedState h = some "off" ↔ s.store A.pin = A.offLevel)

section Reported

variable {A} {σ₀ : Levels} {h : Firmware.History} {s : Firmware.State} {m : SimpleTaskData}
  {older : List SimpleTaskData} {state : String}

/-- The switch has done last what its last message asked for. -/
theorem acts_switch (hrun : firmware.Run σ₀ h s) (hswitch : s.thread A.switch = .waiting)
    (hreceived : received A.switch h = m :: older) (hstate : A.stateOf m = some state) :
    ∃ as, acts A.switch h = .enqueueTaskProgressUpdate ⟨A.uid, m.taskUid, state, 0, ""⟩
      :: A.stateAction state :: as := by
  rw [System.Run.acts_of_waiting hrun hswitch, hreceived, List.flatMap_cons, handle_switch,
    switchActions, hstate]
  exact ⟨_, rfl⟩

theorem reportedState_eq (hrun : firmware.Run σ₀ h s) (hswitch : s.thread A.switch = .waiting)
    (hreceived : received A.switch h = m :: older) (hstate : A.stateOf m = some state) :
    A.reportedState h = some state := by
  obtain ⟨as, hacts⟩ := acts_switch hrun hswitch hreceived hstate
  rw [reportedState, hacts]
  rfl

/-- Told `on` or `off`, the switch has written the level last that it was told. -/
theorem findSome?_write (hrun : firmware.Run σ₀ h s) (hswitch : s.thread A.switch = .waiting)
    (hreceived : received A.switch h = m :: older) (hstate : A.stateOf m = some state)
    (hcommand : state = "on" ∨ state = "off") :
    (acts A.switch h).findSome? A.write
      = some (if state = "on" then A.onLevel else A.offLevel) := by
  obtain ⟨as, hacts⟩ := acts_switch hrun hswitch hreceived hstate
  rw [hacts, List.findSome?_cons, List.findSome?_cons]
  rcases hcommand with rfl | rfl
  · simp [stateAction, switchAction, write, pinWrite]
  · simp [stateAction, switchAction, write, pinWrite]

/-- **When a reported state is right.** Both tasks of an output wait, and the last message to the switch
    said `on` or `off`. Then this is what the switch has reported last, and the output agrees with it
    exactly if it is `off`, or the switch was the last of all to write the output. -/
theorem agrees_iff (hrun : firmware.Run σ₀ h s) (hswitch : s.thread A.switch = .waiting)
    (hother : s.thread A.other = .waiting) (hreceived : received A.switch h = m :: older)
    (hstate : A.stateOf m = some state) (hcommand : state = "on" ∨ state = "off") :
    A.reportedState h = some state ∧
      (A.Agrees h s ↔ state = "off" ∨ lastWriter A.write h = some A.switch) := by
  have hreported := reportedState_eq hrun hswitch hreceived hstate
  have hlevel := A.level_eq hrun hother (findSome?_write hrun hswitch hreceived hstate hcommand)
  have hne : A.offLevel ≠ A.onLevel := by
    cases A <;> decide
  refine ⟨hreported, ?_⟩
  rw [Agrees, hreported, hlevel]
  rcases hcommand with rfl | rfl
  · by_cases hlast : lastWriter A.write h = some A.switch
    · simp [hlast, hne.symm]
    · simp [hlast, hne]
  · simp [hne]

end Reported

/-! ## Two runs -/

/-- A message to a switch. -/
def switchRequest (state : String) : SimpleTaskData := ⟨7, .single A.parameter state⟩

theorem stateOf_switchRequest (state : String) : A.stateOf (A.switchRequest state) = some state := by
  cases A <;> rfl

/-- A switch handles a message from beginning to end. -/
theorem steps_switch (levels : Levels) {m : SimpleTaskData} {state : String}
    (hstate : A.stateOf m = some state) :
    firmware.Steps (Firmware.idleState levels) (System.serveEvents A.switch m (A.switchActions m))
      (Firmware.idleState (firmware.performed (A.switchActions m) levels)) := by
  have hquiet : ∀ a ∈ (firmware.task A.switch).handle m, firmware.halts a = false := by
    rw [handle_switch]
    exact A.halts_switchActions hstate
  have hserve := @System.Steps.serve _ _ _ _ _ firmware [] (fun _ => .waiting) levels A.switch m rfl
    hquiet
  rwa [handle_switch] at hserve

/-- The LED switch, told `on` after boot. -/
theorem agrees_on : ∃ h s, firmware.Run (fun _ => 0) h s ∧ led.reportedState h = some "on" ∧
    led.Agrees h s := by
  obtain ⟨h, levels, hrun, -, hquiet⟩ := Firmware.exists_booted fun _ => 0
  have hstate := led.stateOf_switchRequest "on"
  have hsteps := led.steps_switch levels hstate
  have hreceived : received led.switch
      (System.serveEvents led.switch (led.switchRequest "on")
        (led.switchActions (led.switchRequest "on")) ++ h) = [led.switchRequest "on"] := by
    rw [System.received_serveEvents, (hquiet _).2]
    rfl
  have hagrees := agrees_iff (hrun.trans hsteps) rfl rfl hreceived hstate (Or.inl rfl)
  exact ⟨_, _, hrun.trans hsteps, hagrees.1, hagrees.2.2 (Or.inr rfl)⟩

/-- A run from power-up with one message for the switch, which reports `state`, and after which the
    output is not as reported. -/
def Disagrees (state : String) : Prop :=
  ∃ h s m, firmware.Run (fun _ => 0) h s ∧ s.thread A.switch = .waiting ∧
    s.thread A.other = .waiting ∧ received A.switch h = [m] ∧ A.stateOf m = some state ∧
    ¬ A.Agrees h s

/-- An LED test of five seconds leaves the LED off, whatever the switch has reported before. -/
theorem disagrees_of_ne {state : String} (hoff : state ≠ "off") : led.Disagrees state := by
  obtain ⟨h, levels, hrun, -, hquiet⟩ := Firmware.exists_booted fun _ => 0
  have hstate := led.stateOf_switchRequest state
  have hparse : CString.stoi "5" = .ok 5 := by decide +kernel
  have hswitched := hrun.trans (led.steps_switch levels hstate)
  have htested := hswitched.trans (@System.Steps.serve _ _ _ _ _ firmware [] (fun _ => .waiting) _
    .ledTest (Firmware.request "5") rfl (TaskLedTest.halts_of_lt rfl hparse (by decide)))
  have hreceived : ∀ as as', received led.switch (System.serveEvents .ledTest (Firmware.request "5") as
      ++ (System.serveEvents led.switch (led.switchRequest state) as' ++ h))
      = [led.switchRequest state] := by
    intro as as'
    rw [System.received_serveEvents, System.received_serveEvents, (hquiet _).2]
    rfl
  refine ⟨_, _, led.switchRequest state, htested, rfl, rfl, hreceived _ _, hstate, ?_⟩
  rintro ⟨-, hagrees⟩
  rw [reportedState_eq htested rfl (hreceived _ _) hstate, Option.some.injEq] at hagrees
  refine hoff (hagrees.2 ?_)
  -- the last write of the test
  show firmware.performed ((TaskLedTest.executeTask (Firmware.request "5")).actions) _ pinLedTest = 0
  rw [TaskLedTest.executeTask_of_lt rfl hparse (by decide)]
  show firmware.performed (_ ++ (_ ++ _)) _ pinLedTest = 0
  rw [System.performed_append, System.performed_append]
  rfl

/-- A reported `on` that a test has made wrong, and a report of a string that is no state. -/
theorem disagrees_on_blink : led.Disagrees "on" ∧ led.Disagrees "blink" :=
  ⟨disagrees_of_ne (by decide), disagrees_of_ne (by decide)⟩

end Actuator

end CroniotWatering
