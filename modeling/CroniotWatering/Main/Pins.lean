import CroniotWatering.Library.Monitor
import CroniotWatering.Main.Firmware
import CroniotWatering.Tasks.TaskWaterPlants.Cycle

set_option autoImplicit false

/-! # Who writes which pin

The LED tasks write their own pin only, and the pump switch the pump pin only. The two valve lines
are therefore the watering task's own: in every run their levels are those of the phase its cycle is
in, whatever the other tasks do. -/

namespace CroniotWatering

open TaskSystem TaskWaterPlants WateringCycle

/-! ## The tasks' writes -/

/-- The code writes no pin but `pin`. -/
def TaskM.WritesOnly {α : Type} (pin : GpioNum) (x : TaskM α) : Prop :=
  x.EmitsIn fun a => ∀ pin' level, a = .gpioSetLevel pin' level → pin' = pin

theorem TaskM.WritesOnly.actions {pin : GpioNum} {x : TaskM Unit} (hx : x.WritesOnly pin)
    {pin' : GpioNum} {level : Int} (h : Action.gpioSetLevel pin' level ∈ x.actions) : pin' = pin := by
  obtain ⟨t, r⟩ := x
  cases r with
  | ok _ => exact hx _ h pin' level rfl
  | error f =>
      rcases List.mem_append.1 h with h | h
      · exact hx _ h pin' level rfl
      · cases List.mem_singleton.1 h

theorem writesOnly_gpioSetLevel (pin : GpioNum) (level : Int) :
    (gpioSetLevel pin level).WritesOnly pin := by
  intro a ha pin' level' heq
  rw [List.mem_singleton.1 ha] at heq
  cases heq
  rfl

theorem writesOnly_enqueue (pin : GpioNum) (update : TaskProgressUpdate) :
    (enqueueTaskProgressUpdate update).WritesOnly pin := by
  intro a ha pin' level' heq
  rw [List.mem_singleton.1 ha] at heq
  cases heq

theorem writesOnly_vTaskDelay (pin : GpioNum) (millis : Int) :
    (vTaskDelay millis).WritesOnly pin := by
  intro a ha pin' level' heq
  simp [vTaskDelay, heq] at ha

theorem writesOnly_of_trace_nil {α : Type} {pin : GpioNum} {x : TaskM α} (hx : x.trace = []) :
    x.WritesOnly pin := by
  intro a ha
  rw [hx] at ha
  cases ha

theorem trace_at (p : ParametersValues) (key : Int) : (p.at key).trace = [] := by
  unfold ParametersValues.at
  split <;> rfl

theorem trace_stoi (s : String) : (stoi s).trace = [] := by
  unfold stoi
  split <;> rfl

theorem TaskLedTest.writesOnly (taskData : SimpleTaskData) :
    (TaskLedTest.executeTask taskData).WritesOnly pinLedTest := by
  refine (writesOnly_enqueue _ _).bind fun _ => ?_
  refine (writesOnly_of_trace_nil (trace_at _ _)).bind fun _ => ?_
  refine (writesOnly_of_trace_nil (trace_stoi _)).bind fun _ => ?_
  refine (writesOnly_gpioSetLevel _ _).bind fun _ => ?_
  refine Exec.EmitsIn.bind (Exec.EmitsIn.forLoop (fun i _ => ?_) _ _) fun _ => ?_
  · exact (writesOnly_enqueue _ _).bind fun _ => writesOnly_vTaskDelay _ _
  · exact (writesOnly_gpioSetLevel _ _).bind fun _ => writesOnly_enqueue _ _

theorem TaskLedSwitch.writesOnly (taskData : SimpleTaskData) :
    (TaskLedSwitch.executeTask taskData).WritesOnly pinLedTest := by
  refine (writesOnly_of_trace_nil (trace_at _ _)).bind fun state => ?_
  dsimp only
  split
  · exact (writesOnly_gpioSetLevel _ _).bind fun _ => writesOnly_enqueue _ _
  · split
    · exact (writesOnly_gpioSetLevel _ _).bind fun _ => writesOnly_enqueue _ _
    · refine Exec.EmitsIn.bind ?_ fun _ => writesOnly_enqueue _ _
      intro a ha pin' level' heq
      rw [List.mem_singleton.1 ha] at heq
      cases heq

theorem TaskLedSlider.writesOnly (taskData : SimpleTaskData) :
    (TaskLedSlider.executeTask taskData).WritesOnly pinLedTest := by
  refine (writesOnly_of_trace_nil (trace_at _ _)).bind fun state => ?_
  refine (writesOnly_of_trace_nil (CInt.mul_trace _ _ _)).bind fun scaled => ?_
  refine Exec.EmitsIn.bind ?_ fun _ => writesOnly_enqueue _ _
  intro a ha pin' level' heq
  rw [List.mem_singleton.1 ha] at heq
  cases heq

/-- **The pins of a task.** Whatever code a write is of, constructor or not, it is the watering
    task's, or the pump switch's on the pump pin, or on the pin of the LED. -/
theorem Firmware.prescribed_write {t : TaskId} {pin : GpioNum} {level : Int}
    (h : firmware.Prescribes t (.gpioSetLevel pin level)) :
    t = .waterPlants ∨ (t = .waterPumpSwitch ∧ pin = pinWaterPump) ∨ pin = pinLedTest := by
  have hconstruct : Action.gpioSetLevel pin level ∈ (gpioSetLevel pinLedTest 0).actions →
      pin = pinLedTest := fun hp => (writesOnly_gpioSetLevel pinLedTest 0).actions hp
  cases t with
  | waterPlants => exact Or.inl rfl
  | waterPumpSwitch =>
      refine Or.inr (Or.inl ⟨rfl, ?_⟩)
      rcases h with h | ⟨m, h⟩
      · exact (writesOnly_gpioSetLevel pinWaterPump 1).actions h
      · exact (TaskWaterPumpSwitch.commandOf_of_write h).1
  | ledTest =>
      rcases h with h | ⟨m, h⟩
      · exact Or.inr (Or.inr (hconstruct h))
      · exact Or.inr (Or.inr ((TaskLedTest.writesOnly m).actions h))
  | ledSwitch =>
      rcases h with h | ⟨m, h⟩
      · exact Or.inr (Or.inr (hconstruct h))
      · exact Or.inr (Or.inr ((TaskLedSwitch.writesOnly m).actions h))
  | ledSlider =>
      rcases h with h | ⟨m, h⟩
      · exact Or.inr (Or.inr (hconstruct h))
      · exact Or.inr (Or.inr ((TaskLedSlider.writesOnly m).actions h))

/-! ## The writes of one pin -/

/-- The level an action writes to a pin. -/
def pinWrite (pin : GpioNum) : Action → Option Int
  | .gpioSetLevel pin' level => if pin' = pin then some level else none
  | _ => none

theorem apply_pinWrite (pin : GpioNum) (a : Action) (levels : Levels) :
    a.apply levels pin = (pinWrite pin a).getD (levels pin) := by
  cases a with
  | gpioSetLevel pin' level =>
      by_cases hpin : pin' = pin
      · simp [pinWrite, hpin]
      · simp [pinWrite, hpin, Function.update_of_ne (Ne.symm hpin)]
  | _ => rfl

theorem pinWrite_eq_some {pin : GpioNum} {a : Action} {level : Int} :
    pinWrite pin a = some level ↔ a = .gpioSetLevel pin level := by
  cases a with
  | gpioSetLevel pin' level' => simp [pinWrite]
  | _ => exact iff_of_false nofun nofun

/-! ## The valve lines -/

/-- The levels of the two valve lines. -/
def valveLines (levels : Levels) : Int × Int := (levels pinElectricValve1, levels pinElectricValve2)

/-- What an action does to them. -/
def writeLines : Action → Int × Int → Int × Int
  | .gpioSetLevel pin level, (l₁, l₂) =>
      (if pin = pinElectricValve1 then level else l₁, if pin = pinElectricValve2 then level else l₂)
  | _, ls => ls

theorem valveLines_apply (a : Action) (levels : Levels) :
    valveLines (a.apply levels) = writeLines a (valveLines levels) := by
  cases a with
  | gpioSetLevel pin level =>
      simp only [valveLines, writeLines, Firmware.apply_gpioSetLevel, Function.update_apply,
        eq_comm (a := pin)]
  | _ => rfl

/-- The watering task alone writes the valve lines. -/
theorem firmware_owns_valveLines : firmware.Owns .waterPlants valveLines writeLines where
  view_apply := valveLines_apply
  frame := by
    intro t ht a ha ls
    cases a with
    | gpioSetLevel pin level =>
        rcases Firmware.prescribed_write ha with hplants | ⟨-, hpin⟩ | hpin
        · exact absurd hplants ht
        · rw [hpin]
          rfl
        · rw [hpin]
          rfl
    | _ => rfl

end CroniotWatering
