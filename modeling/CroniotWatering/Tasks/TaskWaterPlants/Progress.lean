import CroniotWatering.Tasks.TaskWaterPlants.Trace
import Mathlib.Tactic.FieldSimp

set_option autoImplicit false

/-! # The progress stream of a watering

A sequence of `n` seconds of watering lasts `n + 17` seconds and reports after each. With `n` at most
600 a second is more than a hundredth of a percent, so rounding to two decimals keeps the reports
apart, and 100 is reached at the end only. -/

namespace CroniotWatering.TaskWaterPlants

open TaskWaterPlantsLogic

/-! ## Percentages -/

/-- After `j` of `n + 17` seconds: the percentage before rounding, in hundredths. -/
def hundredths (n j : ℕ) : ℚ := 10000 * j / (n + 17)

/-- The last second. -/
theorem totalMillis_eq (n : ℕ) : 1000 * ((n + 17 : ℕ) : Int) = totalMillis n := by
  unfold totalMillis
  push_cast
  rfl

theorem computeProgress_eq (n j : ℕ) :
    computeProgress (1000 * j) (totalMillis n) = stdRound (hundredths n j) / 100 := by
  have hpos : ¬ totalMillis n ≤ 0 := by
    unfold totalMillis
    omega
  have hcast : (((1000 * j : Int) : ℚ) * 100 / ((totalMillis n : Int) : ℚ)) * 100
      = hundredths n j := by
    unfold totalMillis hundredths
    push_cast
    field_simp
    ring
  simp only [computeProgress, if_neg hpos, hcast]

theorem computeProgress_zero (n : ℕ) : computeProgress 0 (totalMillis n) = 0 := by
  have h := computeProgress_eq n 0
  have hzero : hundredths n 0 = ((0 : ℤ) : ℚ) := by simp [hundredths]
  rw [hzero, stdRound_intCast] at h
  simpa using h

theorem computeProgress_total (n : ℕ) :
    computeProgress (totalMillis n) (totalMillis n) = 100 := by
  have h := computeProgress_eq n (n + 17)
  have hfull : hundredths n (n + 17) = ((10000 : ℤ) : ℚ) := by
    unfold hundredths
    push_cast
    field_simp
  rw [hfull, stdRound_intCast] at h
  rw [totalMillis_eq] at h
  rw [h]
  norm_num

/-- One second is at least one hundredth of a percent. -/
theorem hundredths_add_one_le {n j k : ℕ} (hn : n ≤ 600) (hjk : j < k) :
    hundredths n j + 1 ≤ hundredths n k := by
  have hpos : (0 : ℚ) < n + 17 := by positivity
  have hn' : (n : ℚ) ≤ 600 := by exact_mod_cast hn
  have hjk' : (j : ℚ) + 1 ≤ k := by exact_mod_cast hjk
  unfold hundredths
  rw [div_add_one hpos.ne', div_le_div_iff_of_pos_right hpos]
  linarith

theorem computeProgress_lt {n j k : ℕ} (hn : n ≤ 600) (hjk : j < k) :
    computeProgress (1000 * j) (totalMillis n) < computeProgress (1000 * k) (totalMillis n) := by
  have hnonneg : 0 ≤ hundredths n j := by
    unfold hundredths
    positivity
  have hlt : stdRound (hundredths n j) < stdRound (hundredths n k) :=
    stdRound_lt_of_add_one_le hnonneg (hundredths_add_one_le hn hjk)
  have hlt' : (stdRound (hundredths n j) : ℚ) < stdRound (hundredths n k) := by exact_mod_cast hlt
  rw [computeProgress_eq, computeProgress_eq]
  linarith

/-- 100 is not reached early. -/
theorem computeProgress_lt_hundred {n j : ℕ} (hn : n ≤ 600) (hj : j < n + 17) :
    computeProgress (1000 * j) (totalMillis n) < 100 := by
  have h := computeProgress_lt hn hj
  rwa [totalMillis_eq, computeProgress_total] at h

/-! ## The stream -/

/-- The update an action enqueues. -/
def enqueuedUpdate : Action → Option TaskProgressUpdate
  | .enqueueTaskProgressUpdate update => some update
  | _ => none

def enqueuedUpdates (as : List Action) : List TaskProgressUpdate := as.filterMap enqueuedUpdate

@[simp] theorem enqueuedUpdates_append (as bs : List Action) :
    enqueuedUpdates (as ++ bs) = enqueuedUpdates as ++ enqueuedUpdates bs :=
  List.filterMap_append ..

/-- Actions that enqueue nothing. -/
theorem enqueuedUpdates_quiet_append {as : List Action} (has : ∀ a ∈ as, enqueuedUpdate a = none)
    (bs : List Action) : enqueuedUpdates (as ++ bs) = enqueuedUpdates bs := by
  rw [enqueuedUpdates_append, enqueuedUpdates, List.filterMap_eq_nil_iff.2 has, List.nil_append]

theorem enqueuedUpdates_second (update : TaskProgressUpdate) :
    enqueuedUpdates (second update) = [update] := rfl

/-- Second `j` of a loop that starts at second `j₀` reports second `j₀ + j + 1`. -/
theorem enqueuedUpdates_seconds (update : Int → TaskProgressUpdate) {elapsed : Int} (j₀ n : ℕ)
    (helapsed : elapsed = 1000 * j₀) :
    enqueuedUpdates (seconds update elapsed n)
      = (List.range' (j₀ + 1) n).map fun j : ℕ => update (1000 * j) := by
  subst helapsed
  induction n with
  | zero => rfl
  | succ n ih =>
      have hlast : seconds update (1000 * j₀) (n + 1)
          = seconds update (1000 * j₀) n ++ second (update (1000 * j₀ + 1000 * (n + 1))) := by
        simp [seconds, List.range_succ]
      have hindex : (1000 * j₀ + 1000 * (n + 1) : Int) = 1000 * ((j₀ + 1 + n : ℕ) : Int) := by
        push_cast
        ring
      rw [hlast, enqueuedUpdates_append, enqueuedUpdates_second, ih, hindex, List.range'_1_concat,
        List.map_append, List.map_singleton]

/-- The update that ends the stream. -/
def completedUpdate (taskUid : Int) : TaskProgressUpdate := ⟨getUid, taskUid, "COMPLETED", 100, ""⟩

/-- The closing loop reports like the others until its last second. -/
theorem closingUpdates_eq (taskUid : Int) {n : ℕ} (hn : n ≤ 600) :
    enqueuedUpdates (seconds (closingUpdate taskUid (totalMillis n)) (9000 + 1000 * n) 8)
      = ((List.range' (n + 10) 7).map fun j : ℕ =>
          runningUpdate taskUid (totalMillis n) (1000 * j)) ++ [completedUpdate taskUid] := by
  rw [enqueuedUpdates_seconds _ (n + 9) 8 (by push_cast; ring), List.range'_concat, List.map_append]
  have hrunning : ∀ j ∈ List.range' (n + 10) 7,
      closingUpdate taskUid (totalMillis n) (1000 * j)
        = runningUpdate taskUid (totalMillis n) (1000 * j) := by
    intro j hj
    rw [List.mem_range'_1] at hj
    exact if_pos (computeProgress_lt_hundred hn (by omega))
  have hcompleted : closingUpdate taskUid (totalMillis n) (1000 * ((n + 9 + 1 + 1 * 7 : ℕ) : Int))
      = completedUpdate taskUid := by
    rw [show n + 9 + 1 + 1 * 7 = n + 17 by omega, totalMillis_eq]
    exact if_neg (by rw [computeProgress_total]; norm_num)
  rw [List.map_congr_left hrunning, List.map_singleton, hcompleted]

/-- The five stretches of a stream: the start, then the four loops. -/
theorem range_stretches (n : ℕ) :
    List.range (n + 17) = [0] ++ List.range' 1 8 ++ List.range' 9 n ++ List.range' (n + 9) 1
      ++ List.range' (n + 10) 7 := by
  rw [List.range_eq_range', show n + 17 = 1 + 8 + n + 1 + 7 by omega, ← List.range'_append_1,
    ← List.range'_append_1, ← List.range'_append_1, ← List.range'_append_1,
    show 0 + (1 + 8 + n) = n + 9 by omega, show 0 + (1 + 8 + n + 1) = n + 10 by omega]
  rfl

theorem enqueuedUpdates_sequenceTrace (taskUid : Int) {n : ℕ} (hn : n ≤ 600) :
    enqueuedUpdates (sequenceTrace taskUid n)
      = ((List.range' 1 8 ++ List.range' 9 n ++ List.range' (n + 9) 1 ++ List.range' (n + 10) 7).map
          fun j : ℕ => runningUpdate taskUid (totalMillis n) (1000 * j))
        ++ [completedUpdate taskUid] := by
  have hopen := enqueuedUpdates_seconds (runningUpdate taskUid (totalMillis n)) 0 8
    (show (0 : Int) = 1000 * (0 : ℕ) by norm_num)
  have hwater := enqueuedUpdates_seconds (runningUpdate taskUid (totalMillis n)) 8 n
    (show (8000 : Int) = 1000 * (8 : ℕ) by norm_num)
  have hstop := enqueuedUpdates_seconds (runningUpdate taskUid (totalMillis n)) (n + 8) 1
    (show (8000 + 1000 * n : Int) = 1000 * ((n + 8 : ℕ) : Int) by push_cast; ring)
  have hclose := closingUpdates_eq taskUid hn
  unfold sequenceTrace
  rw [List.append_assoc, List.append_assoc, List.append_assoc, List.append_assoc,
    List.append_assoc, List.append_assoc,
    enqueuedUpdates_quiet_append (by simp [enqueuedUpdate]), enqueuedUpdates_append, hopen,
    enqueuedUpdates_quiet_append (by simp [enqueuedUpdate]), enqueuedUpdates_append, hwater,
    enqueuedUpdates_quiet_append (by simp [enqueuedUpdate]), enqueuedUpdates_append, hstop,
    enqueuedUpdates_quiet_append (by simp [enqueuedUpdate]), hclose]
  simp only [List.map_append, List.append_assoc]

/-- The whole stream: one update a second, counting the start, and `COMPLETED` last. -/
theorem enqueuedUpdates_executeTask {taskData : SimpleTaskData} {requested : Int}
    (h : requestedSeconds taskData = some requested) :
    enqueuedUpdates (executeTask taskData).trace
      = ((List.range (doseSeconds requested + 17)).map fun j : ℕ =>
          runningUpdate taskData.taskUid (totalMillis (doseSeconds requested)) (1000 * j))
        ++ [completedUpdate taskData.taskUid] := by
  have hstart : enqueuedUpdates [.enqueueTaskProgressUpdate (startUpdate taskData.taskUid)]
      = [0].map fun j : ℕ =>
          runningUpdate taskData.taskUid (totalMillis (doseSeconds requested)) (1000 * j) := by
    simp [enqueuedUpdates, enqueuedUpdate, startUpdate, runningUpdate, computeProgress_zero]
  rw [executeTask_of_accepted h, enqueuedUpdates_append, hstart,
    enqueuedUpdates_sequenceTrace _ (doseSeconds_le requested), range_stretches]
  simp only [List.map_append, List.append_assoc]

/-- The percentages of the stream increase with every second. -/
theorem progress_increasing {n : ℕ} (hn : n ≤ 600) (taskUid : Int) :
    ((((List.range (n + 17)).map fun j : ℕ => runningUpdate taskUid (totalMillis n) (1000 * j))
      ++ [completedUpdate taskUid]).map TaskProgressUpdate.progress).Pairwise (· < ·) := by
  rw [List.map_append, List.map_map, List.pairwise_append, List.pairwise_map]
  refine ⟨List.pairwise_lt_range.imp fun hjk => computeProgress_lt hn hjk,
    List.pairwise_singleton _ _, ?_⟩
  intro x hx y hy
  obtain ⟨j, hj, rfl⟩ := List.mem_map.1 hx
  rw [List.mem_singleton.1 hy]
  exact computeProgress_lt_hundred hn (List.mem_range.1 hj)

/-- **The progress stream of an accepted watering.** One update at the start and one a second, all
    for the request; the percentages start at 0 and strictly increase; the last update is `COMPLETED`
    with 100, and every other one is `RUNNING` below 100. -/
theorem progress_stream {taskData : SimpleTaskData} {value : String} {parsed : Int}
    (hkey : taskData.parametersValues.find taskWaterPlantsParameterDuration = some value)
    (hparse : parseDurationSeconds value = some parsed) :
    ∃ running completed,
      enqueuedUpdates (executeTask taskData).trace = running ++ [completed] ∧
      ((running ++ [completed]).length : Int) = CInt.clamp parsed 1 600 + 18 ∧
      (∀ update ∈ running ++ [completed], update.taskUid = taskData.taskUid) ∧
      ((running ++ [completed]).map TaskProgressUpdate.progress).head? = some 0 ∧
      ((running ++ [completed]).map TaskProgressUpdate.progress).Pairwise (· < ·) ∧
      (completed.state = "COMPLETED" ∧ completed.progress = 100) ∧
      ∀ update ∈ running, update.state = "RUNNING" ∧ update.progress < 100 := by
  have haccepted : requestedSeconds taskData = some parsed := by
    rw [requestedSeconds, hkey, Option.bind_some, hparse]
  have hdose : ((doseSeconds parsed : ℕ) : Int) = CInt.clamp parsed 1 600 := doseSeconds_cast parsed
  have hn := doseSeconds_le parsed
  refine ⟨_, _, enqueuedUpdates_executeTask haccepted, ?_, ?_, ?_, progress_increasing hn _,
    ⟨rfl, rfl⟩, ?_⟩
  · rw [← hdose]
    simp
    ring
  · intro update hupdate
    rcases List.mem_append.1 hupdate with hrunning | hcompleted
    · obtain ⟨j, -, rfl⟩ := List.mem_map.1 hrunning
      rfl
    · rw [List.mem_singleton.1 hcompleted]
      rfl
  · rw [range_stretches]
    simp [runningUpdate, computeProgress_zero]
  · intro update hupdate
    obtain ⟨j, hj, rfl⟩ := List.mem_map.1 hupdate
    exact ⟨rfl, computeProgress_lt_hundred hn (List.mem_range.1 hj)⟩

/-- A watering of five seconds. -/
theorem progress_stream_five :
    ∃ running completed,
      enqueuedUpdates (executeTask ⟨7, .single 1 "5"⟩).trace = running ++ [completed] ∧
      ((running ++ [completed]).length : Int) = 23 ∧
      completed.state = "COMPLETED" ∧ completed.progress = 100 := by
  have hkey : (ParametersValues.single 1 "5").find taskWaterPlantsParameterDuration = some "5" := rfl
  have hparse : parseDurationSeconds "5" = some 5 := by decide
  have hstream := @progress_stream ⟨7, .single 1 "5"⟩ "5" 5 hkey hparse
  obtain ⟨running, completed, htrace, hlength, -, -, -, hcompleted, -⟩ := hstream
  exact ⟨running, completed, htrace, hlength, hcompleted⟩

end CroniotWatering.TaskWaterPlants
