import CroniotWatering.Tasks.TaskWaterPlants
import Mathlib.Tactic.NormNum

set_option autoImplicit false

/-! # What `executeTask` does, in closed form

The one place where the watering task's code is evaluated: `executeTask` never faults, and its trace
is an opening update followed either by the log of a rejection or by the whole watering sequence. All
other facts about the task are read off `executeTask_eq`. -/

namespace CroniotWatering.TaskWaterPlants

open TaskWaterPlantsLogic WaterSequenceController

/-! ## The pin operations -/

@[simp] theorem setPumpLevel_eq (level : Int) :
    gpioDriver.setPumpLevel level = ⟨[.gpioSetLevel pinWaterPump level], .ok ()⟩ := rfl

theorem openWaterValve_eq : openWaterValve gpioDriver
    = ⟨[.gpioSetLevel pinElectricValve1 1, .gpioSetLevel pinElectricValve2 0], .ok ()⟩ := rfl

theorem closeWaterValve_eq : closeWaterValve gpioDriver
    = ⟨[.gpioSetLevel pinElectricValve2 1, .gpioSetLevel pinElectricValve1 0], .ok ()⟩ := rfl

theorem taskStep_eq (taskUid : Int) (name : String) (ok : Bool) :
    taskStep taskUid name ok = ⟨[.taskStep taskUid name ok], .ok ()⟩ := rfl

/-! ## The updates -/

/-- The update `executeTask` starts with. -/
def startUpdate (taskUid : Int) : TaskProgressUpdate := ⟨getUid, taskUid, "RUNNING", 0, ""⟩

/-- The update `sendProgress` enqueues. -/
def runningUpdate (taskUid totalDuration elapsedMillis : Int) : TaskProgressUpdate :=
  ⟨getUid, taskUid, "RUNNING", computeProgress elapsedMillis totalDuration, ""⟩

/-- The update the closing loop enqueues. -/
def closingUpdate (taskUid totalDuration elapsedMillis : Int) : TaskProgressUpdate :=
  if computeProgress elapsedMillis totalDuration < 100 then
    runningUpdate taskUid totalDuration elapsedMillis
  else ⟨getUid, taskUid, "COMPLETED", 100, ""⟩

theorem sendProgress_eq (taskUid totalDuration elapsedMillis : Int) :
    sendProgress taskUid totalDuration elapsedMillis
      = ⟨[.enqueueTaskProgressUpdate (runningUpdate taskUid totalDuration elapsedMillis)], .ok ()⟩ :=
  rfl

theorem sendClosingProgress_eq (taskUid totalDuration elapsedMillis : Int) :
    sendClosingProgress taskUid totalDuration elapsedMillis
      = ⟨[.enqueueTaskProgressUpdate (closingUpdate taskUid totalDuration elapsedMillis)], .ok ()⟩ := by
  by_cases h : computeProgress elapsedMillis totalDuration < 100
  · simp only [sendClosingProgress, closingUpdate, if_pos h]
    rfl
  · simp only [sendClosingProgress, closingUpdate, if_neg h]
    rfl

/-! ## The loops -/

/-- One second of a loop: the delay, then the report. -/
def second (update : TaskProgressUpdate) : List Action :=
  [.delayBegin 1000, .delayEnd 1000, .enqueueTaskProgressUpdate update]

/-- `n` seconds, the first of which starts at `elapsed`. -/
def seconds (update : Int → TaskProgressUpdate) (elapsed : Int) (n : ℕ) : List Action :=
  (List.range n).flatMap fun k : ℕ => second (update (elapsed + 1000 * (k + 1)))

/-- A loop over `1000 * n` milliseconds takes `n` seconds, and no `int` overflows. -/
theorem delayLoop_eq {report : Int → TaskM Unit} {update : Int → TaskProgressUpdate}
    (hreport : ∀ e, report e = ⟨[.enqueueTaskProgressUpdate (update e)], .ok ()⟩)
    (n : ℕ) {elapsed : Int} (h₀ : 0 ≤ elapsed) (hmax : elapsed + 1000 * n ≤ CInt.maxValue) :
    delayLoop (1000 * n) report elapsed
      = ⟨seconds update elapsed n, .ok (elapsed + 1000 * n)⟩ := by
  unfold CInt.maxValue at hmax
  have hadd : ∀ k : ℕ, k < n → (addInt (elapsed + 1000 * (k : Int)) 1000 : TaskM Int)
      = ⟨[], .ok (elapsed + 1000 * (k + 1))⟩ := by
    intro k hk
    exact addInt_eq (by ring) (by omega) (by omega)
  have hloop : delayLoop (1000 * n) report (elapsed + 1000 * (0 : ℕ))
      = ⟨seconds update elapsed n, .ok (elapsed + 1000 * n)⟩ := by
    refine Exec.forLoop_eq (fun k => elapsed + 1000 * (k : Int))
      (fun k => second (update (elapsed + 1000 * (k + 1))))
      (by norm_num) (by unfold CInt.maxValue; omega) ?_ ?_
    · intro k _
      simp
    · intro k hk
      simp only [vTaskDelay, Exec.emit_eq, Exec.ok_bind, hadd k hk, hreport, Exec.pure_eq]
      simp [second]
  simpa using hloop

/-! ## The whole task -/

/-- The duration a message asks for, before clamping; `none` if the message is rejected. -/
def requestedSeconds (taskData : SimpleTaskData) : Option Int :=
  (taskData.parametersValues.find taskWaterPlantsParameterDuration).bind parseDurationSeconds

/-- The seconds of watering for a requested duration. -/
def doseSeconds (requested : Int) : ℕ := (clampDurationSeconds requested).toNat

theorem doseSeconds_cast (requested : Int) :
    ((doseSeconds requested : ℕ) : Int) = clampDurationSeconds requested := by
  have h : kMinDurationSeconds ≤ clampDurationSeconds requested :=
    CInt.le_clamp requested (by decide)
  unfold kMinDurationSeconds at h
  exact Int.toNat_of_nonneg (by omega)

theorem doseSeconds_le (requested : Int) : doseSeconds requested ≤ 600 := by
  have h : clampDurationSeconds requested ≤ kMaxDurationSeconds :=
    CInt.clamp_le requested (by decide)
  rw [← doseSeconds_cast] at h
  unfold kMaxDurationSeconds at h
  omega

/-- The total duration, in milliseconds, of a sequence that waters for `n` seconds. -/
def totalMillis (n : ℕ) : Int := 1000 * (n + 17)

/-- What a rejected message leaves in the log. -/
def rejectionLog (taskData : SimpleTaskData) : List Action :=
  match taskData.parametersValues.find taskWaterPlantsParameterDuration with
  | none =>
      [.espLogE ("Key not found: " ++ toString taskWaterPlantsParameterDuration),
        .logEvent "task_param_missing"
          [("taskUid", toString taskData.taskUid),
            ("param", toString taskWaterPlantsParameterDuration)]]
  | some value => [.espLogE ("Invalid duration value: " ++ value)]

/-- The watering sequence: open, water for `n` seconds, stop, close. -/
def sequenceTrace (taskUid : Int) (n : ℕ) : List Action :=
  [.gpioSetLevel pinElectricValve1 1, .gpioSetLevel pinElectricValve2 0,
    .taskStep taskUid "valve_open" true]
  ++ seconds (runningUpdate taskUid (totalMillis n)) 0 8
  ++ [.gpioSetLevel pinWaterPump kPumpOnLevel, .taskStep taskUid "watering_start" true]
  ++ seconds (runningUpdate taskUid (totalMillis n)) 8000 n
  ++ [.gpioSetLevel pinWaterPump kPumpOffLevel, .taskStep taskUid "watering_stop" true]
  ++ seconds (runningUpdate taskUid (totalMillis n)) (8000 + 1000 * n) 1
  ++ [.gpioSetLevel pinElectricValve2 1, .gpioSetLevel pinElectricValve1 0,
    .taskStep taskUid "valve_close" true]
  ++ seconds (closingUpdate taskUid (totalMillis n)) (9000 + 1000 * n) 8

theorem computeTotalDurationMillis_eq {n : ℕ} (hn : n ≤ 600) :
    computeTotalDurationMillis (n * 1000) = ⟨[], .ok (totalMillis n)⟩ := by
  have htotal : (totalMillis n : Int) = 17000 + n * 1000 := by
    unfold totalMillis
    ring
  have hopened : addInt kOpenTimeMillis (n * 1000) = ⟨[], .ok (8000 + n * 1000)⟩ :=
    addInt_eq (by rw [kOpenTimeMillis]) (by omega) (by omega)
  have hstopped : addInt (8000 + n * 1000) kCloseDelayMillis = ⟨[], .ok (9000 + n * 1000)⟩ :=
    addInt_eq (by rw [kCloseDelayMillis]; omega) (by omega) (by omega)
  have hclosed : addInt (9000 + n * 1000) kCloseTimeMillis = ⟨[], .ok (totalMillis n)⟩ :=
    addInt_eq (by rw [kCloseTimeMillis]; omega) (by omega) (by omega)
  exact Exec.bind_of_eq hopened (Exec.bind_of_eq hstopped hclosed)

/-- The loop over `millis` milliseconds, when that is `n` seconds and ends at `elapsed'`. -/
theorem delayLoop_eq_of {report : Int → TaskM Unit} {update : Int → TaskProgressUpdate}
    (hreport : ∀ e, report e = ⟨[.enqueueTaskProgressUpdate (update e)], .ok ()⟩)
    {millis elapsed elapsed' : Int} (n : ℕ) (hmillis : millis = 1000 * n)
    (helapsed : elapsed' = elapsed + 1000 * n) (h₀ : 0 ≤ elapsed)
    (hmax : elapsed' ≤ 2147483647) :
    delayLoop millis report elapsed = ⟨seconds update elapsed n, .ok elapsed'⟩ := by
  subst hmillis helapsed
  exact delayLoop_eq hreport n h₀ hmax

theorem runSequence_eq (taskUid : Int) {n : ℕ} (hn : n ≤ 600) :
    runSequence taskUid n = ⟨sequenceTrace taskUid n, .ok (totalMillis n)⟩ := by
  have hmul : mulInt (n : Int) 1000 = ⟨[], .ok (n * 1000)⟩ :=
    CInt.mul_of_inRange _ (CInt.inRange_of_bounds (by omega) (by omega))
  have hrunning := sendProgress_eq taskUid (totalMillis n)
  have hclosing := sendClosingProgress_eq taskUid (totalMillis n)
  have htotal : totalMillis n = 9000 + 1000 * n + 1000 * (8 : ℕ) := by
    unfold totalMillis
    push_cast
    ring
  have hopen : delayLoop kOpenTimeMillis (sendProgress taskUid (totalMillis n)) 0
      = ⟨seconds (runningUpdate taskUid (totalMillis n)) 0 8, .ok 8000⟩ :=
    delayLoop_eq_of hrunning 8 (by norm_num [kOpenTimeMillis]) (by norm_num) (by omega) (by omega)
  have hwater : delayLoop (n * 1000) (sendProgress taskUid (totalMillis n)) 8000
      = ⟨seconds (runningUpdate taskUid (totalMillis n)) 8000 n, .ok (8000 + 1000 * n)⟩ :=
    delayLoop_eq_of hrunning n (by omega) (by omega) (by omega) (by omega)
  have hstop : delayLoop kCloseDelayMillis (sendProgress taskUid (totalMillis n)) (8000 + 1000 * n)
      = ⟨seconds (runningUpdate taskUid (totalMillis n)) (8000 + 1000 * n) 1,
          .ok (9000 + 1000 * n)⟩ :=
    delayLoop_eq_of hrunning 1 (by norm_num [kCloseDelayMillis]) (by omega) (by omega) (by omega)
  have hclose : delayLoop kCloseTimeMillis (sendClosingProgress taskUid (totalMillis n))
        (9000 + 1000 * n)
      = ⟨seconds (closingUpdate taskUid (totalMillis n)) (9000 + 1000 * n) 8,
          .ok (totalMillis n)⟩ :=
    delayLoop_eq_of hclosing 8 (by norm_num [kCloseTimeMillis]) htotal (by omega) (by omega)
  calc runSequence taskUid n = ⟨_, .ok (totalMillis n)⟩ :=
      Exec.bind_of_eq hmul <|
      Exec.bind_of_eq (computeTotalDurationMillis_eq hn) <|
      Exec.bind_of_eq openWaterValve_eq <|
      Exec.bind_of_eq (taskStep_eq taskUid "valve_open" true) <|
      Exec.bind_of_eq hopen <|
      Exec.bind_of_eq (setPumpLevel_eq kPumpOnLevel) <|
      Exec.bind_of_eq (taskStep_eq taskUid "watering_start" true) <|
      Exec.bind_of_eq hwater <|
      Exec.bind_of_eq (setPumpLevel_eq kPumpOffLevel) <|
      Exec.bind_of_eq (taskStep_eq taskUid "watering_stop" true) <|
      Exec.bind_of_eq hstop <|
      Exec.bind_of_eq closeWaterValve_eq <|
      Exec.bind_of_eq (taskStep_eq taskUid "valve_close" true) hclose
    _ = ⟨sequenceTrace taskUid n, .ok (totalMillis n)⟩ := by
      simp only [sequenceTrace, List.cons_append, List.nil_append, List.append_assoc]

/-- **`executeTask` in closed form.** It never faults: a message is either logged as rejected, or its
    whole sequence runs. -/
theorem executeTask_eq (taskData : SimpleTaskData) :
    executeTask taskData
      = ⟨.enqueueTaskProgressUpdate (startUpdate taskData.taskUid) ::
          match requestedSeconds taskData with
          | none => rejectionLog taskData
          | some requested => sequenceTrace taskData.taskUid (doseSeconds requested),
        .ok ()⟩ := by
  have hrun : ∀ requested : Int, runSequence taskData.taskUid (clampDurationSeconds requested)
      = ⟨sequenceTrace taskData.taskUid (doseSeconds requested),
          .ok (totalMillis (doseSeconds requested))⟩ := by
    intro requested
    rw [← doseSeconds_cast]
    exact runSequence_eq _ (doseSeconds_le requested)
  simp only [executeTask, requestedSeconds, rejectionLog, enqueueTaskProgressUpdate, Exec.emit_eq,
    Exec.ok_bind]
  cases hfind : taskData.parametersValues.find taskWaterPlantsParameterDuration with
  | none => simp [startUpdate]
  | some value =>
      cases hparse : parseDurationSeconds value with
      | none => simp [hparse, startUpdate]
      | some requested => simp [hparse, hrun, startUpdate]

theorem actions_eq (taskData : SimpleTaskData) :
    (executeTask taskData).actions = (executeTask taskData).trace := by
  rw [executeTask_eq]
  rfl

theorem executeTask_of_accepted {taskData : SimpleTaskData} {requested : Int}
    (h : requestedSeconds taskData = some requested) :
    executeTask taskData
      = ⟨[.enqueueTaskProgressUpdate (startUpdate taskData.taskUid)]
          ++ sequenceTrace taskData.taskUid (doseSeconds requested), .ok ()⟩ := by
  rw [executeTask_eq, h]
  rfl

theorem executeTask_of_rejected {taskData : SimpleTaskData}
    (h : requestedSeconds taskData = none) :
    executeTask taskData
      = ⟨[.enqueueTaskProgressUpdate (startUpdate taskData.taskUid)] ++ rejectionLog taskData,
          .ok ()⟩ := by
  rw [executeTask_eq, h]
  rfl

end CroniotWatering.TaskWaterPlants
