import CroniotWatering.Tasks.LedTasks
import CroniotWatering.Tasks.TaskWaterPlants.Dose
import CroniotWatering.Tasks.TaskWaterPlants.Progress

set_option autoImplicit false

/-! # The LED test

The duration registered for the LED test is 1 to 10 seconds, and the code runs its loop for whatever
number it is given. Below the bound the LED never stays on, above it the LED stays on for too long, and
at `INT_MAX` the loop variable overflows. -/

namespace CroniotWatering.TaskLedTest

open TaskWaterPlants (pinEvents delays enqueuedUpdates enqueuedUpdates_append pinEvents_append)

def runningUpdate (taskUid durationSeconds i : Int) : TaskProgressUpdate :=
  ⟨getUid, taskUid, "RUNNING", i * 100 / durationSeconds, ""⟩

def startUpdate (taskUid : Int) : TaskProgressUpdate := ⟨getUid, taskUid, "RUNNING", 0, ""⟩

def completedUpdate (taskUid : Int) : TaskProgressUpdate := ⟨getUid, taskUid, "COMPLETED", 100, ""⟩

/-- One iteration: the report, then the delay. -/
def iteration (update : TaskProgressUpdate) : List Action :=
  [.enqueueTaskProgressUpdate update, .delayBegin 1000, .delayEnd 1000]

/-- The loop: `n` iterations. -/
def iterations (update : Int → TaskProgressUpdate) (n : ℕ) : List Action :=
  (List.range n).flatMap fun k : ℕ => iteration (update (k + 1))

/-! ## What the code does -/

/-- The loop of `executeTask`. -/
def testLoop (taskUid durationSeconds : Int) : TaskM Unit :=
  Exec.forLoop CInt.maxValue .intOverflow (fun i => i ≤ durationSeconds) 1
    (fun i _ => do
      enqueueTaskProgressUpdate (runningUpdate taskUid durationSeconds i)
      vTaskDelay 1000)
    1 ()

/-- What comes before the loop, and after it. -/
def opening (taskUid : Int) : List Action :=
  [.enqueueTaskProgressUpdate (startUpdate taskUid), .gpioSetLevel pinLedTest 1]

def closing (taskUid : Int) : List Action :=
  [.gpioSetLevel pinLedTest 0, .enqueueTaskProgressUpdate (completedUpdate taskUid)]

variable {taskData : SimpleTaskData} {durationStr : String} {durationSeconds : Int}

theorem executeTask_eq
    (hkey : taskData.parametersValues.find taskWaterPlantsParameterDuration = some durationStr)
    (hparse : CString.stoi durationStr = .ok durationSeconds) :
    executeTask taskData =
      (⟨opening taskData.taskUid, .ok ()⟩ : TaskM Unit) >>= fun _ =>
        testLoop taskData.taskUid durationSeconds >>= fun _ =>
          ⟨closing taskData.taskUid, .ok ()⟩ := by
  unfold executeTask ParametersValues.at stoi
  simp only [hkey, hparse, Exec.pure_eq, Exec.ok_bind]
  rfl

/-- Short of `INT_MAX` the loop ends by its condition. -/
theorem testLoop_eq (taskUid : Int) (hmax : durationSeconds < CInt.maxValue) :
    testLoop taskUid durationSeconds
      = ⟨iterations (runningUpdate taskUid durationSeconds) durationSeconds.toNat, .ok ()⟩ := by
  refine Exec.forLoop_eq (fun _ => ())
    (fun k => iteration (runningUpdate taskUid durationSeconds (k + 1)))
    (by norm_num) (by unfold CInt.maxValue at *; omega) ?_ ?_
  · intro k _
    refine decide_eq_decide.2 ?_
    omega
  · intro k _
    simp [enqueueTaskProgressUpdate, vTaskDelay, iteration, add_comm]

/-- At `INT_MAX` no value of the loop variable fails the condition. -/
theorem testLoop_overflows (taskUid : Int) (hmax : durationSeconds = CInt.maxValue) :
    (testLoop taskUid durationSeconds).result = .error .intOverflow := by
  refine Exec.forLoop_overflows ?_ ?_ () (by decide)
  · intro i hi
    exact decide_eq_true (by omega)
  · intro i _
    exact ⟨_, (), rfl⟩

theorem executeTask_overflows
    (hkey : taskData.parametersValues.find taskWaterPlantsParameterDuration = some durationStr)
    (hparse : CString.stoi durationStr = .ok durationSeconds)
    (hmax : durationSeconds = CInt.maxValue) :
    (executeTask taskData).result = .error .intOverflow := by
  rw [executeTask_eq hkey hparse, Exec.ok_bind]
  exact Exec.result_bind_of_error (testLoop_overflows taskData.taskUid hmax)

/-- The whole trace, for every other duration. -/
theorem executeTask_of_lt
    (hkey : taskData.parametersValues.find taskWaterPlantsParameterDuration = some durationStr)
    (hparse : CString.stoi durationStr = .ok durationSeconds)
    (hmax : durationSeconds < CInt.maxValue) :
    executeTask taskData =
      ⟨opening taskData.taskUid
        ++ (iterations (runningUpdate taskData.taskUid durationSeconds) durationSeconds.toNat
          ++ closing taskData.taskUid), .ok ()⟩ := by
  rw [executeTask_eq hkey hparse, testLoop_eq _ hmax, Exec.ok_bind, Exec.ok_bind]

/-- A test within `int` halts nothing. -/
theorem halts_of_lt
    (hkey : taskData.parametersValues.find taskWaterPlantsParameterDuration = some durationStr)
    (hparse : CString.stoi durationStr = .ok durationSeconds)
    (hmax : durationSeconds < CInt.maxValue) :
    ∀ a ∈ (executeTask taskData).actions, a.halts = false := by
  rw [executeTask_of_lt hkey hparse hmax]
  intro a ha
  simp only [TaskM.actions, List.mem_append, iterations, List.mem_flatMap] at ha
  rcases ha with ha | ⟨k, -, ha⟩ | ha
  · revert a
    simp [opening, Action.halts]
  · revert a
    simp [iteration, Action.halts]
  · revert a
    simp [closing, Action.halts]

/-- A test that runs to its end switches the LED off at last. -/
theorem exists_closing (h : (executeTask taskData).result = .ok ()) :
    ∃ as, (executeTask taskData).trace = as ++ closing taskData.taskUid := by
  cases hkey : taskData.parametersValues.find taskWaterPlantsParameterDuration with
  | none => simp [executeTask, ParametersValues.at, enqueueTaskProgressUpdate, hkey] at h
  | some durationStr =>
      cases hparse : CString.stoi durationStr with
      | error e =>
          simp [executeTask, ParametersValues.at, stoi, enqueueTaskProgressUpdate, hkey, hparse] at h
      | ok durationSeconds =>
          -- every message but one with `INT_MAX` runs to its end
          by_cases hmax : durationSeconds = CInt.maxValue
          · rw [executeTask_overflows hkey hparse hmax] at h
            cases h
          · have hrange : durationSeconds ≤ CInt.maxValue := (CString.stoi_inRange hparse).2
            rw [executeTask_of_lt hkey hparse (by omega)]
            exact ⟨_, (List.append_assoc ..).symm⟩

/-! ## What is seen of it -/

theorem pinEvents_iterations (update : Int → TaskProgressUpdate) (n : ℕ) :
    pinEvents (iterations update n) = delays n := TaskWaterPlants.pinEvents_flatMap (fun _ => rfl) n

theorem enqueuedUpdates_iterations (update : Int → TaskProgressUpdate) (n : ℕ) :
    enqueuedUpdates (iterations update n) = (List.range n).map fun k : ℕ => update (k + 1) := by
  rw [enqueuedUpdates, iterations, List.filterMap_flatMap]
  show (List.range n).flatMap (fun k : ℕ => [update (k + 1)]) = _
  rw [← List.map_eq_flatMap]

/-- The LED is on for `n` seconds. -/
def lightEvents (n : ℕ) : List TaskWaterPlants.PinEvent :=
  [.write pinLedTest 1] ++ delays n ++ [.write pinLedTest 0]

theorem lightEvents_injective {n n' : ℕ} (h : lightEvents n = lightEvents n') : n = n' := by
  have hlength := congrArg List.length h
  simpa [lightEvents, delays] using hlength

/-- The updates for a test that reports `running` on the way. -/
structure ProgressStream (taskUid : Int) (updates running : List TaskProgressUpdate) : Prop where
  completed : updates = running ++ [completedUpdate taskUid]
  bounded : ∀ update ∈ running, update.state = "RUNNING" ∧ 0 ≤ update.progress ∧
    update.progress ≤ 100
  sorted : running.Pairwise fun update update' => update.progress ≤ update'.progress

/-- The test a message asks for, with the duration clamped to the registered bound. -/
structure Honours (taskData : SimpleTaskData) (durationSeconds : Int) : Prop where
  ends : (executeTask taskData).result = .ok ()
  light : pinEvents (executeTask taskData).trace = lightEvents (CInt.clamp durationSeconds 1 10).toNat
  stream : ∃ running,
    ProgressStream taskData.taskUid (enqueuedUpdates (executeTask taskData).trace) running

/-- The LED is on for as many seconds as the message says. -/
theorem light_eq
    (hkey : taskData.parametersValues.find taskWaterPlantsParameterDuration = some durationStr)
    (hparse : CString.stoi durationStr = .ok durationSeconds)
    (hmax : durationSeconds < CInt.maxValue) :
    pinEvents (executeTask taskData).trace = lightEvents durationSeconds.toNat := by
  rw [executeTask_of_lt hkey hparse hmax, pinEvents_append, pinEvents_append, pinEvents_iterations,
    lightEvents, List.append_assoc]
  rfl

/-! ## The percentages -/

/-- The reports before the last one. -/
def runningUpdates (taskUid durationSeconds : Int) : List TaskProgressUpdate :=
  startUpdate taskUid ::
    (List.range durationSeconds.toNat).map fun k : ℕ => runningUpdate taskUid durationSeconds (k + 1)

theorem enqueuedUpdates_eq
    (hkey : taskData.parametersValues.find taskWaterPlantsParameterDuration = some durationStr)
    (hparse : CString.stoi durationStr = .ok durationSeconds)
    (hmax : durationSeconds < CInt.maxValue) :
    enqueuedUpdates (executeTask taskData).trace
      = runningUpdates taskData.taskUid durationSeconds ++ [completedUpdate taskData.taskUid] := by
  rw [executeTask_of_lt hkey hparse hmax, enqueuedUpdates_append, enqueuedUpdates_append,
    enqueuedUpdates_iterations]
  rfl

/-- Report `k + 1` of `n` lies in the range of a percentage. -/
theorem runningUpdate_bounds (taskUid : Int) {k n : ℕ} (hk : k < n) :
    0 ≤ (runningUpdate taskUid n (k + 1)).progress ∧
      (runningUpdate taskUid n (k + 1)).progress ≤ 100 := by
  have hn : (0 : ℚ) < n := by exact_mod_cast (by omega : 0 < n)
  have hle : ((k : ℚ) + 1) ≤ n := by exact_mod_cast (by omega : k + 1 ≤ n)
  simp only [runningUpdate, Int.cast_add, Int.cast_natCast, Int.cast_one]
  refine ⟨by positivity, ?_⟩
  rw [div_le_iff₀ hn]
  linarith

theorem runningUpdate_mono (taskUid : Int) {k k' n : ℕ} (hkk' : k ≤ k') :
    (runningUpdate taskUid n (k + 1)).progress ≤ (runningUpdate taskUid n (k' + 1)).progress := by
  have hle : (k : ℚ) ≤ k' := by exact_mod_cast hkk'
  simp only [runningUpdate, Int.cast_add, Int.cast_natCast, Int.cast_one]
  gcongr

theorem progressStream (taskUid : Int) (n : ℕ) :
    ProgressStream taskUid (runningUpdates taskUid n ++ [completedUpdate taskUid])
      (runningUpdates taskUid n) := by
  have hbounded : ∀ update ∈ (List.range n).map fun k : ℕ => runningUpdate taskUid n (k + 1),
      update.state = "RUNNING" ∧ 0 ≤ update.progress ∧ update.progress ≤ 100 := by
    intro update hupdate
    obtain ⟨k, hk, rfl⟩ := List.mem_map.1 hupdate
    exact ⟨rfl, runningUpdate_bounds taskUid (List.mem_range.1 hk)⟩
  refine ⟨rfl, ?_, ?_⟩
  · intro update hupdate
    rcases List.mem_cons.1 hupdate with rfl | hupdate
    · exact ⟨rfl, le_refl _, by norm_num [startUpdate]⟩
    · exact hbounded update hupdate
  · refine List.pairwise_cons.2 ⟨fun update hupdate => (hbounded update hupdate).2.1, ?_⟩
    rw [List.pairwise_map]
    exact (List.pairwise_lt_range).imp fun hlt => runningUpdate_mono taskUid (le_of_lt hlt)

/-! ## Which durations are honoured -/

theorem clamp_toNat_eq_iff {value : Int} :
    (CInt.clamp value 1 10).toNat = value.toNat ↔ 1 ≤ value ∧ value ≤ 10 := by
  unfold CInt.clamp
  split
  · omega
  · split <;> omega

/-- **Which durations are honoured**: those in the registered bound. -/
theorem honours_iff
    (hkey : taskData.parametersValues.find taskWaterPlantsParameterDuration = some durationStr)
    (hparse : CString.stoi durationStr = .ok durationSeconds) :
    Honours taskData durationSeconds ↔ 1 ≤ durationSeconds ∧ durationSeconds ≤ 10 := by
  refine ⟨fun hhonours => ?_, fun hbound => ?_⟩
  · -- the test either faults or shows as many seconds of light as the message says
    by_cases hmax : durationSeconds = CInt.maxValue
    · have hfault := hhonours.ends
      rw [executeTask_overflows hkey hparse hmax] at hfault
      cases hfault
    · have hrange : durationSeconds ≤ CInt.maxValue := (CString.stoi_inRange hparse).2
      have hlight := hhonours.light
      rw [light_eq hkey hparse (by omega)] at hlight
      exact clamp_toNat_eq_iff.1 (lightEvents_injective hlight).symm
  · have hmax : durationSeconds < CInt.maxValue := by
      unfold CInt.maxValue
      omega
    refine ⟨?_, ?_, runningUpdates taskData.taskUid durationSeconds, ?_⟩
    · rw [executeTask_of_lt hkey hparse hmax]
    · rw [light_eq hkey hparse hmax, clamp_toNat_eq_iff.2 hbound]
    · have hcast : durationSeconds = (durationSeconds.toNat : Int) := by omega
      rw [enqueuedUpdates_eq hkey hparse hmax, hcast]
      exact progressStream taskData.taskUid durationSeconds.toNat

/-- Five seconds are within the bound. -/
theorem honours_five :
    Honours ⟨7, .single taskWaterPlantsParameterDuration "5"⟩ 5 := by
  have hparse : CString.stoi "5" = .ok 5 := by decide +kernel
  exact (@honours_iff ⟨7, .single taskWaterPlantsParameterDuration "5"⟩ "5" 5 rfl hparse).2
    (by decide)

/-- A test of zero seconds never shows any light. -/
theorem not_honours_zero :
    ¬ ∀ (taskData : SimpleTaskData) (durationStr : String) (durationSeconds : Int),
      taskData.parametersValues.find taskWaterPlantsParameterDuration = some durationStr →
      CString.stoi durationStr = .ok durationSeconds → Honours taskData durationSeconds := by
  intro hclaim
  have hparse : CString.stoi "0" = .ok 0 := by decide +kernel
  have hhonours := hclaim ⟨7, .single taskWaterPlantsParameterDuration "0"⟩ "0" 0 rfl hparse
  have hlight := hhonours.light
  rw [light_eq rfl hparse (by decide)] at hlight
  exact absurd (lightEvents_injective hlight) (by decide)

end CroniotWatering.TaskLedTest
