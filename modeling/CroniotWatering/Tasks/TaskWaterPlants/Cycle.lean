import CroniotWatering.Tasks.TaskWaterPlants.Trace
import CroniotWatering.WateringCycle

set_option autoImplicit false

/-! # The watering task runs the watering cycle

Eight of the task's actions stand for the operations of the cycle; the others (updates, records, log
lines) are of no concern to it. Read this way, the code for an accepted message is one whole cycle,
and for a rejected message it is nothing. -/

namespace CroniotWatering.TaskWaterPlants

open WateringCycle WaterSequenceController History

/-- The times of the sequence. -/
def timing : Timing where
  seconds
    | .opening => 8
    | .watering => 600
    | .settling => 1
    | .closing => 8
  closing_pos := by decide
  settling_pos := by decide

/-- The action that carries an operation out. -/
def actionOf : Op → Action
  | .raise1 => .gpioSetLevel pinElectricValve1 1
  | .drop1 => .gpioSetLevel pinElectricValve1 0
  | .raise2 => .gpioSetLevel pinElectricValve2 1
  | .drop2 => .gpioSetLevel pinElectricValve2 0
  | .pumpOn => .gpioSetLevel pinWaterPump kPumpOnLevel
  | .pumpOff => .gpioSetLevel pinWaterPump kPumpOffLevel
  | .sleep => .delayBegin 1000
  | .wake => .delayEnd 1000

/-- The operation an action carries out, if any. -/
def opOf (a : Action) : Option Op :=
  [Op.raise1, .drop1, .raise2, .drop2, .pumpOn, .pumpOff, .sleep, .wake].find? fun op =>
    actionOf op = a

/-- The actions the cycle has nothing to do with. -/
def ignored : Action → Bool
  | .enqueueTaskProgressUpdate _ | .taskStep .. | .logEvent .. | .espLogE _ | .espLogW _ => true
  | _ => false

theorem opOf_classifies : Classifies opOf actionOf := by
  intro a op
  constructor
  · intro h
    have := List.find?_some h
    exact (of_decide_eq_true this).symm
  · rintro rfl
    cases op <;> decide

theorem mem_filterMap_opOf {op : Op} {as : List Action} :
    op ∈ as.filterMap opOf ↔ actionOf op ∈ as := by
  rw [List.mem_filterMap]
  refine ⟨?_, fun ha => ⟨actionOf op, ha, opOf_classifies.apply op⟩⟩
  rintro ⟨a, ha, hop⟩
  rwa [← (opOf_classifies a op).1 hop]

/-- The watering cycle over the task's actions. -/
abbrev plantsNext : Phase → Action → Option Phase :=
  Monitor.classified (next timing) opOf ignored

/-- What an ignored action is not. -/
theorem opOf_of_ignored {a : Action} (h : ignored a = true) : opOf a = none := by
  cases a with
  | enqueueTaskProgressUpdate | taskStep | logEvent | espLogE | espLogW => rfl
  | _ => cases h

/-! ## The code as operations -/

theorem filterMap_seconds (update : Int → TaskProgressUpdate) (elapsed : Int) (n : ℕ) :
    (seconds update elapsed n).filterMap opOf = rounds n := by
  unfold seconds rounds
  rw [List.filterMap_flatMap]
  rfl

theorem filterMap_sequenceTrace (taskUid : Int) {n : ℕ} :
    (sequenceTrace taskUid n).filterMap opOf = cycle timing n := by
  simp only [sequenceTrace, List.filterMap_append, filterMap_seconds]
  rfl

/-- Every action of the code is an operation or ignored. -/
def Covered (as : List Action) : Prop := ∀ a ∈ as, opOf a = none → ignored a = true

theorem covered_append {as bs : List Action} :
    Covered (as ++ bs) ↔ Covered as ∧ Covered bs := List.forall_mem_append

theorem covered_of_ignored {as : List Action} (h : ∀ a ∈ as, ignored a = true) : Covered as :=
  fun a ha _ => h a ha

theorem covered_seconds (update : Int → TaskProgressUpdate) (elapsed : Int) (n : ℕ) :
    Covered (seconds update elapsed n) := by
  intro a ha
  obtain ⟨k, -, ha⟩ := List.mem_flatMap.1 ha
  simp only [second, List.mem_cons, List.not_mem_nil, or_false] at ha
  rcases ha with rfl | rfl | rfl
  · decide
  · decide
  · exact fun _ => rfl

/-- Operations, followed by the record of a step. -/
theorem covered_step (ops : List Op) (taskUid : Int) (name : String) (ok : Bool) :
    Covered (ops.map actionOf ++ [.taskStep taskUid name ok]) := by
  refine covered_append.2 ⟨?_, covered_of_ignored (by simp [ignored])⟩
  intro a ha hnone
  obtain ⟨op, -, rfl⟩ := List.mem_map.1 ha
  rw [opOf_classifies.apply] at hnone
  cases hnone

theorem covered_sequenceTrace (taskUid : Int) (n : ℕ) : Covered (sequenceTrace taskUid n) := by
  simp only [sequenceTrace, covered_append]
  refine ⟨⟨⟨⟨⟨⟨⟨?_, ?_⟩, ?_⟩, ?_⟩, ?_⟩, ?_⟩, ?_⟩, ?_⟩
  · exact covered_step [.raise1, .drop2] taskUid "valve_open" true
  · exact covered_seconds _ _ _
  · exact covered_step [.pumpOn] taskUid "watering_start" true
  · exact covered_seconds _ _ _
  · exact covered_step [.pumpOff] taskUid "watering_stop" true
  · exact covered_seconds _ _ _
  · exact covered_step [.raise2, .drop1] taskUid "valve_close" true
  · exact covered_seconds _ _ _

theorem ignored_rejectionLog (taskData : SimpleTaskData) :
    ∀ a ∈ rejectionLog taskData, ignored a = true := by
  unfold rejectionLog
  split <;> simp [ignored]

/-- The code's actions never halt the board. -/
theorem halts_of_covered {as : List Action} (h : Covered as) : ∀ a ∈ as, a.halts = false := by
  intro a ha
  cases a with
  | terminate f => exact absurd (h _ ha rfl) (by simp [ignored])
  | _ => rfl

/-! ## The code as a cycle -/

/-- What the code for a message comes to, as operations: a cycle, or nothing. -/
theorem filterMap_actions (taskData : SimpleTaskData) :
    (executeTask taskData).actions.filterMap opOf
      = match requestedSeconds taskData with
        | none => []
        | some requested => cycle timing (doseSeconds requested) := by
  rw [actions_eq]
  cases h : requestedSeconds taskData with
  | none =>
      rw [executeTask_of_rejected h, List.filterMap_append]
      exact List.filterMap_eq_nil_iff.2 fun a ha => opOf_of_ignored (ignored_rejectionLog _ a ha)
  | some requested =>
      rw [executeTask_of_accepted h, List.filterMap_append, filterMap_sequenceTrace]
      rfl

theorem covered_actions (taskData : SimpleTaskData) : Covered (executeTask taskData).actions := by
  rw [actions_eq]
  have hstart : Covered [.enqueueTaskProgressUpdate (startUpdate taskData.taskUid)] :=
    covered_of_ignored (by simp [ignored])
  cases h : requestedSeconds taskData with
  | none =>
      rw [executeTask_of_rejected h]
      exact covered_append.2 ⟨hstart, covered_of_ignored (ignored_rejectionLog taskData)⟩
  | some requested =>
      rw [executeTask_of_accepted h]
      exact covered_append.2 ⟨hstart, covered_sequenceTrace _ _⟩

/-- The resting phase a message leads to: an accepted one leaves a used cycle behind. -/
def settle (p : Phase) (taskData : SimpleTaskData) : Phase :=
  if (requestedSeconds taskData).isSome then .rest true else p

/-- **The code refines the cycle.** From rest, the code for any message is allowed throughout and
    ends at rest. -/
theorem run_actions (used : Bool) (taskData : SimpleTaskData) :
    Monitor.run plantsNext (.rest used) (executeTask taskData).actions
      = some (settle (.rest used) taskData) := by
  rw [Monitor.run_classified (covered_actions taskData), filterMap_actions, settle]
  cases requestedSeconds taskData with
  | none => rfl
  | some requested => exact run_cycle used (doseSeconds_le requested)

end CroniotWatering.TaskWaterPlants
