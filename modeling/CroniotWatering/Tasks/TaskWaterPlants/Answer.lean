import CroniotWatering.Tasks.TaskWaterPlants.Progress

set_option autoImplicit false

/-! # The answer to a request

A request is answered when the updates for it end with a terminal one, the only one of them. The task
announces `RUNNING` before it has looked at the message, and a message it then rejects leaves an entry
in the log and no further update. -/

namespace CroniotWatering.TaskWaterPlants

/-- Any state other than `RUNNING` ends a request. -/
def Terminal (update : TaskProgressUpdate) : Prop := update.state ≠ "RUNNING"

/-- The last update is terminal, and no other one is. -/
def EndsOnce (updates : List TaskProgressUpdate) : Prop :=
  ∃ running final, updates = running ++ [final] ∧ (∀ update ∈ running, ¬ Terminal update) ∧
    Terminal final

/-- The updates some code enqueues for a request. -/
def updatesFor (taskUid : Int) (as : List Action) : List TaskProgressUpdate :=
  (enqueuedUpdates as).filter fun update => update.taskUid = taskUid

/-- The request is answered. -/
def Answered (taskData : SimpleTaskData) : Prop :=
  EndsOnce (updatesFor taskData.taskUid (executeTask taskData).actions)

/-! ## Rejected messages -/

theorem enqueuedUpdates_rejectionLog (taskData : SimpleTaskData) :
    enqueuedUpdates (rejectionLog taskData) = [] := by
  unfold rejectionLog
  split <;> rfl

/-- All that is enqueued for a rejected message is its announcement. -/
theorem updatesFor_rejected {taskData : SimpleTaskData} (h : requestedSeconds taskData = none) :
    updatesFor taskData.taskUid (executeTask taskData).actions = [startUpdate taskData.taskUid] := by
  have hstart : enqueuedUpdates [.enqueueTaskProgressUpdate (startUpdate taskData.taskUid)]
      = [startUpdate taskData.taskUid] := rfl
  rw [executeTask_of_rejected h]
  show (enqueuedUpdates (_ ++ rejectionLog taskData)).filter _ = _
  rw [enqueuedUpdates_append, enqueuedUpdates_rejectionLog, hstart]
  simp [startUpdate]

theorem not_endsOnce_startUpdate (taskUid : Int) : ¬ EndsOnce [startUpdate taskUid] := by
  rintro ⟨running, final, hsplit, -, hfinal⟩
  have hlast : final = startUpdate taskUid := by
    have hmem : final ∈ [startUpdate taskUid] := by
      rw [hsplit]
      simp
    exact List.mem_singleton.1 hmem
  rw [hlast] at hfinal
  exact hfinal rfl

/-! ## Accepted messages -/

/-- An accepted message is answered at the end of its watering. -/
theorem endsOnce_accepted {taskData : SimpleTaskData} {requested : Int}
    (h : requestedSeconds taskData = some requested) : Answered taskData := by
  refine ⟨(List.range (doseSeconds requested + 17)).map fun j : ℕ =>
    runningUpdate taskData.taskUid (totalMillis (doseSeconds requested)) (1000 * j),
    completedUpdate taskData.taskUid, ?_, ?_, ?_⟩
  · unfold updatesFor
    rw [actions_eq, enqueuedUpdates_executeTask h, List.filter_eq_self]
    intro update hupdate
    -- every update carries the uid of the message
    rcases List.mem_append.1 hupdate with hrunning | hcompleted
    · obtain ⟨j, -, rfl⟩ := List.mem_map.1 hrunning
      exact decide_eq_true rfl
    · rw [List.mem_singleton.1 hcompleted]
      exact decide_eq_true rfl
  · intro update hupdate
    obtain ⟨j, -, rfl⟩ := List.mem_map.1 hupdate
    exact not_not_intro rfl
  · show "COMPLETED" ≠ "RUNNING"
    decide

/-- **Which requests are answered**: those whose duration is there and parses. -/
theorem answered_iff (taskData : SimpleTaskData) :
    Answered taskData ↔ ∃ value parsed,
      taskData.parametersValues.find taskWaterPlantsParameterDuration = some value ∧
      TaskWaterPlantsLogic.parseDurationSeconds value = some parsed := by
  have hrequested : (∃ parsed, requestedSeconds taskData = some parsed) ↔ ∃ value parsed,
      taskData.parametersValues.find taskWaterPlantsParameterDuration = some value ∧
      TaskWaterPlantsLogic.parseDurationSeconds value = some parsed := by
    simp only [requestedSeconds, Option.bind_eq_some_iff]
    exact exists_comm.trans (exists_congr fun value => by simp)
  rw [← hrequested]
  refine ⟨fun hanswered => ?_, ?_⟩
  · cases h : requestedSeconds taskData with
    | some parsed => exact ⟨parsed, rfl⟩
    | none =>
        rw [Answered, updatesFor_rejected h] at hanswered
        exact absurd hanswered (not_endsOnce_startUpdate taskData.taskUid)
  · rintro ⟨parsed, hparsed⟩
    exact endsOnce_accepted hparsed

/-- A request without a duration stays `RUNNING`. -/
theorem not_answered_empty : ¬ ∀ taskData : SimpleTaskData, Answered taskData := by
  intro hclaim
  have hanswered := hclaim ⟨7, ⟨[], List.Pairwise.nil⟩⟩
  rw [Answered, updatesFor_rejected (by decide)] at hanswered
  exact not_endsOnce_startUpdate 7 hanswered

end CroniotWatering.TaskWaterPlants
