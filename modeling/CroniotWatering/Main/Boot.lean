import CroniotWatering.Library.Schedule
import CroniotWatering.Main.Phase

set_option autoImplicit false

/-! # From power-up to the first messages

Whatever the pins hold at power-up, the firmware boots to a state where all tasks wait, the pump is
off and both valve lines are low; from a state where all tasks wait, the watering task can handle any
message, and be stopped at any action of it. -/

namespace CroniotWatering.Firmware

open TaskSystem TaskWaterPlants WaterSequenceController

/-- Everything is constructed, and all tasks wait. -/
def idleState (levels : Levels) : State := ⟨[], fun _ => .waiting, levels, false⟩

theorem exists_booted (σ₀ : Levels) :
    ∃ h levels, firmware.Run σ₀ h (idleState levels) ∧
      (levels pinWaterPump = kPumpOffLevel ∧ valveLines levels = (0, 0)) ∧
      ∀ t, acts t h = [] ∧ received t h = [] := by
  obtain ⟨h, hrun, hquiet⟩ := @System.Run.booted _ _ _ _ _ firmware TaskId.registerTasks_nodup σ₀
  have hthread : (fun t : TaskId => if t ∈ firmware.order then (.waiting : Thread) else .absent)
      = fun _ => .waiting := by
    funext t
    exact if_pos (TaskId.mem_registerTasks t)
  rw [hthread] at hrun
  exact ⟨h, _, hrun, ⟨rfl, rfl⟩, hquiet⟩

/-- The watering task handles a message from beginning to end. -/
theorem exists_served (levels : Levels) (m : SimpleTaskData) :
    ∃ levels', firmware.Steps (idleState levels)
      (System.serveEvents .waterPlants m (TaskWaterPlants.executeTask m).actions)
      (idleState levels') :=
  ⟨_, System.Steps.serve m rfl (halts_of_covered (covered_actions m))⟩

/-- The watering task takes a message and is stopped after the first part of its code. -/
theorem steps_begin (levels : Levels) {m : SimpleTaskData} {as todo : List Action}
    (hm : (TaskWaterPlants.executeTask m).actions = as ++ todo) :
    firmware.Steps (idleState levels) (System.beginEvents .waterPlants m as)
      ⟨[], Function.update (fun _ => .waiting) .waterPlants (.running m todo),
        firmware.performed as levels, false⟩ := by
  have hquiet := halts_of_covered (covered_actions m)
  rw [hm] at hquiet
  exact System.Steps.begin rfl hm fun a ha => hquiet a (List.mem_append_left _ ha)

/-! ## Messages -/

/-- A request to water for as many seconds as a text says. -/
def request (duration : String) : SimpleTaskData :=
  ⟨7, .single taskWaterPlantsParameterDuration duration⟩

theorem actions_of_accepted {m : SimpleTaskData} {requested : Int}
    (h : requestedSeconds m = some requested) :
    (TaskWaterPlants.executeTask m).actions
      = [.enqueueTaskProgressUpdate (startUpdate m.taskUid)]
        ++ sequenceTrace m.taskUid (doseSeconds requested) := by
  rw [actions_eq, executeTask_of_accepted h]

/-- An accepted message starts with the opening of the valve, and the delays are still to come. -/
theorem actions_opening {m : SimpleTaskData} {requested : Int}
    (h : requestedSeconds m = some requested) :
    ∃ todo, (TaskWaterPlants.executeTask m).actions
        = [.enqueueTaskProgressUpdate (startUpdate m.taskUid),
            .gpioSetLevel pinElectricValve1 1, .gpioSetLevel pinElectricValve2 0] ++ todo ∧
      Action.delayEnd 1000 ∈ todo := by
  rw [actions_of_accepted h, sequenceTrace]
  simp only [List.append_assoc, List.cons_append, List.nil_append]
  refine ⟨_, rfl, ?_⟩
  refine List.mem_cons_of_mem _ (List.mem_append_left _ ?_)
  exact List.mem_flatMap.2 ⟨0, by decide, by simp [second]⟩

/-- The pump is switched on after the opening stage. -/
theorem actions_starting {m : SimpleTaskData} {requested : Int}
    (h : requestedSeconds m = some requested) :
    ∃ opening todo, (TaskWaterPlants.executeTask m).actions
        = (opening ++ [.gpioSetLevel pinWaterPump kPumpOnLevel]) ++ todo := by
  rw [actions_of_accepted h, sequenceTrace]
  generalize seconds (runningUpdate m.taskUid (totalMillis (doseSeconds requested))) 0 8 = opening
  exact ⟨[.enqueueTaskProgressUpdate (startUpdate m.taskUid), .gpioSetLevel pinElectricValve1 1,
      .gpioSetLevel pinElectricValve2 0, .taskStep m.taskUid "valve_open" true] ++ opening, _,
    by simp only [List.append_assoc, List.cons_append, List.nil_append]; rfl⟩

/-- Boot and one accepted watering: all tasks wait again. -/
theorem exists_watered (σ₀ : Levels) {m : SimpleTaskData} {requested : Int}
    (haccepted : requestedSeconds m = some requested) :
    ∃ h levels, firmware.Run σ₀ h (idleState levels) ∧
      (.gpioSetLevel pinElectricValve1 1) ∈ acts TaskId.waterPlants h ∧
      received .waterPlants h = [m] ∧ received .waterPumpSwitch h = [] := by
  obtain ⟨h, levels, hrun, -, hquiet⟩ := exists_booted σ₀
  obtain ⟨levels', hserve⟩ := exists_served levels m
  obtain ⟨todo, hm, -⟩ := actions_opening haccepted
  refine ⟨_, levels', hrun.trans hserve, ?_, ?_, ?_⟩
  · rw [acts_append, (hquiet _).1, List.append_nil]
    show _ ∈ acts TaskId.waterPlants (System.beginEvents .waterPlants m _)
    rw [System.acts_beginEvents, hm]
    simp
  · rw [received_append, (hquiet _).2, List.append_nil]
    exact System.received_beginEvents ..
  · rw [received_append, (hquiet _).2, List.append_nil]
    exact System.received_beginEvents ..

end CroniotWatering.Firmware
