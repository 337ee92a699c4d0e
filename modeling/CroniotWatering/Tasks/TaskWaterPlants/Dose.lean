import CroniotWatering.Tasks.TaskWaterPlants.Trace

set_option autoImplicit false

/-! # The dose of every run

What the watering task does to its pins and to the time, message by message: the opening sequence of
the constructor, and then for each message either nothing or one watering sequence with exactly one
pump window of the clamped duration. -/

namespace CroniotWatering.TaskWaterPlants

open TaskWaterPlantsLogic WaterSequenceController

/-- What is observed of a task at its pins. -/
inductive PinEvent where
  | write (pin : GpioNum) (level : Int)
  | delay (millis : Int)
deriving DecidableEq

/-- GPIO writes, and delays as they end. -/
def pinEvent : Action → Option PinEvent
  | .gpioSetLevel pin level => some (.write pin level)
  | .delayEnd millis => some (.delay millis)
  | _ => none

/-- `n` one-second delays. -/
def delays (n : ℕ) : List PinEvent := List.replicate n (.delay 1000)

/-- The writes of `driveToSafeState`. -/
def bootEvents : List PinEvent :=
  [.write pinElectricValve2 1, .write pinElectricValve1 0, .write pinWaterPump 1,
    .write pinElectricValve2 0, .write pinElectricValve1 0]

/-- One watering sequence with a pump window of `n` seconds. -/
def doseEvents (n : ℕ) : List PinEvent :=
  [.write pinElectricValve1 1, .write pinElectricValve2 0] ++ delays 8
    ++ [.write pinWaterPump 0] ++ delays n ++ [.write pinWaterPump 1] ++ delays 1
    ++ [.write pinElectricValve2 1, .write pinElectricValve1 0] ++ delays 8

/-- What a message causes: nothing if its duration is absent or rejected, else one sequence. -/
def messageEvents (taskData : SimpleTaskData) : List PinEvent :=
  match taskData.parametersValues.find taskWaterPlantsParameterDuration with
  | none => []
  | some value =>
      match parseDurationSeconds value with
      | none => []
      | some parsed => doseEvents (CInt.clamp parsed 1 600).toNat

/-- What is observed of a piece of code. -/
def pinEvents (as : List Action) : List PinEvent := as.filterMap pinEvent

@[simp] theorem pinEvents_append (as bs : List Action) :
    pinEvents (as ++ bs) = pinEvents as ++ pinEvents bs := List.filterMap_append ..

/-- A loop shows `n` delays if each of its `n` rounds shows one. -/
theorem pinEvents_flatMap {round : ℕ → List Action}
    (h : ∀ k, pinEvents (round k) = [.delay 1000]) (n : ℕ) :
    pinEvents ((List.range n).flatMap round) = delays n := by
  have hrounds : ∀ k, (round k).filterMap pinEvent = [.delay 1000] := h
  rw [pinEvents, List.filterMap_flatMap]
  simp only [hrounds]
  rw [← List.map_eq_flatMap, List.map_const', List.length_range]
  rfl

/-- A loop of `n` seconds is `n` delays to an observer. -/
@[simp] theorem pinEvents_seconds (update : Int → TaskProgressUpdate) (elapsed : Int) (n : ℕ) :
    pinEvents (seconds update elapsed n) = delays n := pinEvents_flatMap (fun _ => rfl) n

theorem pinEvents_sequenceTrace (taskUid : Int) (n : ℕ) :
    pinEvents (sequenceTrace taskUid n) = doseEvents n := by
  simp only [sequenceTrace, pinEvents_append, pinEvents_seconds]
  rfl

/-- Neither way of rejecting a message shows at the pins. -/
theorem pinEvents_rejectionLog (taskData : SimpleTaskData) :
    pinEvents (rejectionLog taskData) = [] := by
  unfold rejectionLog
  split <;> rfl

/-- One message: the code runs to its end, and shows what the message calls for. -/
theorem pinEvents_executeTask (taskData : SimpleTaskData) :
    ∃ trace, executeTask taskData = ⟨trace, .ok ()⟩ ∧
      pinEvents trace = messageEvents taskData := by
  refine ⟨_, executeTask_eq taskData, ?_⟩
  show pinEvents ([.enqueueTaskProgressUpdate (startUpdate taskData.taskUid)] ++ _) = _
  rw [pinEvents_append, messageEvents, requestedSeconds]
  cases hfind : taskData.parametersValues.find taskWaterPlantsParameterDuration with
  | none => exact pinEvents_rejectionLog taskData
  | some value =>
      simp only [Option.bind_some]
      cases parseDurationSeconds value with
      | none => exact pinEvents_rejectionLog taskData
      | some parsed => exact pinEvents_sequenceTrace _ _

/-- A queue of messages: each in turn. -/
theorem pinEvents_loop (queue : List SimpleTaskData) :
    ∃ trace, loop queue = ⟨trace, .ok ()⟩ ∧ pinEvents trace = queue.flatMap messageEvents := by
  induction queue with
  | nil => exact ⟨[], rfl, rfl⟩
  | cons taskData queue ih =>
      obtain ⟨trace, hexec, htrace⟩ := pinEvents_executeTask taskData
      obtain ⟨trace', hloop, htrace'⟩ := ih
      refine ⟨trace ++ trace', Exec.bind_of_eq hexec hloop, ?_⟩
      rw [pinEvents_append, htrace, htrace', List.flatMap_cons]

/-- **Exact dose.** From power-up, over any queue of messages, the task shows the writes of
    `driveToSafeState` and then, message by message, what each calls for, and nothing else. No `int`
    overflows on the way, and after a sequence `elapsed` is the total it was reported against. -/
theorem exact_dose (queue : List SimpleTaskData) :
    (∃ trace, (constructor >>= fun _ => loop queue) = ⟨trace, .ok ()⟩ ∧
      pinEvents trace = bootEvents ++ queue.flatMap messageEvents) ∧
    ∀ taskUid parsed : Int, ∃ elapsed : Int,
      (runSequence taskUid (clampDurationSeconds parsed)).result = .ok elapsed ∧
      (computeTotalDurationMillis (clampDurationSeconds parsed * 1000)).result = .ok elapsed := by
  refine ⟨?_, fun taskUid parsed => ?_⟩
  · obtain ⟨trace, hloop, htrace⟩ := pinEvents_loop queue
    have hboot : constructor = ⟨constructor.trace, .ok ()⟩ := rfl
    refine ⟨constructor.trace ++ trace, Exec.bind_of_eq hboot hloop, ?_⟩
    rw [pinEvents_append, htrace]
    rfl
  · have hn := doseSeconds_le parsed
    rw [← doseSeconds_cast]
    refine ⟨totalMillis (doseSeconds parsed), ?_, ?_⟩
    · rw [runSequence_eq taskUid hn]
    · rw [computeTotalDurationMillis_eq hn]

end CroniotWatering.TaskWaterPlants
