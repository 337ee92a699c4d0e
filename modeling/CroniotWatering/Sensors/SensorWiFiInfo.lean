import CroniotWatering.Sensors.Sensor
import Mathlib.Algebra.Order.BigOperators.Group.List

set_option autoImplicit false

/-! # The WiFi signal

`Sensors/SensorWiFiInfoLogic.cpp` and `Sensors/SensorWiFiInfo.cpp`: ten queries of the access point, of
which those that fail or lie outside of the expected range are left out of an average. -/

namespace CroniotWatering

namespace SensorWiFiInfoLogic

/-- The range expected of a signal, in dBm. -/
def isValidRssi (rssi : Int) : Bool := rssi ≤ -20 && rssi ≥ -127

structure RssiAverageResult where
  average : Int := 0
  validCount : Int := 0
  failedCount : Int := 0
deriving DecidableEq

/-- One iteration of the loop, on its sum and its counters. -/
def addSample (acc : Int × RssiAverageResult) (rssi : Int) : TaskM (Int × RssiAverageResult) := do
  let (sum, result) := acc
  if isValidRssi rssi then
    let sum' ← addInt sum rssi
    let validCount' ← addInt result.validCount 1
    pure (sum', { result with validCount := validCount' })
  else
    let failedCount' ← addInt result.failedCount 1
    pure (sum, { result with failedCount := failedCount' })

def averageRssi (samples : List Int) : TaskM RssiAverageResult := do
  let (sum, result) ← samples.foldlM addSample (0, {})
  pure { result with
    average := if result.validCount > 0 then sum.tdiv result.validCount else 0 }

end SensorWiFiInfoLogic

namespace SensorWiFiStrength

open SensorWiFiInfoLogic

/-- `wifi_ap_record_t::rssi`, an `int8_t`. -/
structure ApRssi where
  val : Int
  ge : -128 ≤ val
  le : val ≤ 127

/-- The results of the queries of one cycle: a signal, or a failure of the API. -/
structure ApInfos where
  results : List (Option ApRssi)
  length_eq : results.length = 10

/-- The samples that were pushed. -/
def ApInfos.rssiSamples (apInfos : ApInfos) : List Int :=
  apInfos.results.filterMap fun result => result.map ApRssi.val

/-- One cycle of the task. -/
def task (apInfos : ApInfos) : TaskM SensorCycle := do
  let avgResult ← averageRssi apInfos.rssiSamples
  -- the cycle is skipped, and the next one starts after the same second
  if avgResult.validCount = 0 then
    pure ⟨[], 1000⟩
  else
    pure ⟨[.sendSensorData sensorWifiStrength (toString avgResult.average)], 1000⟩

end SensorWiFiStrength

namespace SensorWiFiInfoLogic

/-! ## The loop in closed form -/

/-- The samples that count. -/
def validSamples (samples : List Int) : List Int := samples.filter isValidRssi

theorem isValidRssi_iff {rssi : Int} : isValidRssi rssi = true ↔ -127 ≤ rssi ∧ rssi ≤ -20 := by
  simp [isValidRssi, and_comm]

theorem validSamples_cons_of_valid {rssi : Int} (h : isValidRssi rssi = true)
    (samples : List Int) : validSamples (rssi :: samples) = rssi :: validSamples samples :=
  List.filter_cons_of_pos h

theorem validSamples_cons_of_invalid {rssi : Int} (h : isValidRssi rssi = false)
    (samples : List Int) : validSamples (rssi :: samples) = validSamples samples :=
  List.filter_cons_of_neg (by simp [h])

/-- The counters and the sum have room for `n` more samples. -/
structure Room (n : ℕ) (sum : Int) (result : RssiAverageResult) : Prop where
  sum_ge : -2147483648 ≤ sum - 127 * n
  sum_le : sum ≤ 0
  validCount : 0 ≤ result.validCount ∧ result.validCount + n ≤ 2147483647
  failedCount : 0 ≤ result.failedCount ∧ result.failedCount + n ≤ 2147483647

/-- One more sample, without overflow. -/
theorem addSample_of_valid {n : ℕ} {sum rssi : Int} {result : RssiAverageResult}
    (hroom : Room (n + 1) sum result) (h : isValidRssi rssi = true) :
    addSample (sum, result) rssi
      = ⟨[], .ok (sum + rssi, { result with validCount := result.validCount + 1 })⟩ ∧
    Room n (sum + rssi) { result with validCount := result.validCount + 1 } := by
  obtain ⟨hge, hle, hvalid, hfailed⟩ := hroom
  have hrange := isValidRssi_iff.1 h
  push_cast at hge hvalid hfailed
  have hsum : addInt sum rssi = ⟨[], .ok (sum + rssi)⟩ :=
    addInt_eq rfl (by omega) (by omega)
  have hcount : addInt result.validCount 1 = ⟨[], .ok (result.validCount + 1)⟩ :=
    addInt_eq rfl (by omega) (by omega)
  refine ⟨?_, ?_⟩
  · simp [addSample, h, hsum, hcount]
  · refine ⟨by omega, by omega, ?_, ?_⟩
    · show 0 ≤ result.validCount + 1 ∧ result.validCount + 1 + n ≤ 2147483647
      omega
    · show 0 ≤ result.failedCount ∧ result.failedCount + n ≤ 2147483647
      omega

theorem addSample_of_invalid {n : ℕ} {sum rssi : Int} {result : RssiAverageResult}
    (hroom : Room (n + 1) sum result) (h : isValidRssi rssi = false) :
    addSample (sum, result) rssi
      = ⟨[], .ok (sum, { result with failedCount := result.failedCount + 1 })⟩ ∧
    Room n sum { result with failedCount := result.failedCount + 1 } := by
  obtain ⟨hge, hle, hvalid, hfailed⟩ := hroom
  push_cast at hge hvalid hfailed
  have hcount : addInt result.failedCount 1 = ⟨[], .ok (result.failedCount + 1)⟩ :=
    addInt_eq rfl (by omega) (by omega)
  refine ⟨?_, ?_⟩
  · simp [addSample, h, hcount]
  · refine ⟨by omega, hle, ?_, ?_⟩
    · show 0 ≤ result.validCount ∧ result.validCount + n ≤ 2147483647
      omega
    · show 0 ≤ result.failedCount + 1 ∧ result.failedCount + 1 + n ≤ 2147483647
      omega

/-- The loop adds up and counts the valid samples, and counts the others. -/
theorem foldlM_addSample (samples : List Int) {sum : Int} {result : RssiAverageResult}
    (hroom : Room samples.length sum result) :
    samples.foldlM addSample (sum, result)
      = ⟨[], .ok (sum + (validSamples samples).sum,
          { result with
            validCount := result.validCount + (validSamples samples).length
            failedCount := result.failedCount
              + (samples.length - (validSamples samples).length) })⟩ := by
  -- each sample takes up one place of the room
  induction samples generalizing sum result with
  | nil => simp [validSamples]
  | cons rssi samples ih =>
      cases h : isValidRssi rssi with
      | true =>
          obtain ⟨hstep, hroom'⟩ := addSample_of_valid hroom h
          rw [List.foldlM_cons, hstep, Exec.ok_bind, ih hroom', validSamples_cons_of_valid h]
          simp only [List.nil_append, List.sum_cons, List.length_cons, Nat.cast_add, Nat.cast_one]
          ring_nf
      | false =>
          obtain ⟨hstep, hroom'⟩ := addSample_of_invalid hroom h
          rw [List.foldlM_cons, hstep, Exec.ok_bind, ih hroom', validSamples_cons_of_invalid h]
          simp only [List.nil_append, List.length_cons, Nat.cast_add, Nat.cast_one]
          ring_nf

/-- What the function returns, in unbounded integers. -/
def exactResult (samples : List Int) : RssiAverageResult where
  average :=
    if 0 < (validSamples samples).length then
      (validSamples samples).sum.tdiv (validSamples samples).length
    else 0
  validCount := (validSamples samples).length
  failedCount := samples.length - (validSamples samples).length

/-- **No overflow.** Of fewer than `2^31 / 127` samples, the function returns the exact result. -/
theorem averageRssi_eq {samples : List Int} (hlength : samples.length * 127 < 2 ^ 31) :
    averageRssi samples = ⟨[], .ok (exactResult samples)⟩ := by
  have hroom : Room samples.length 0 {} := ⟨by omega, le_refl 0, by simp; omega, by simp; omega⟩
  unfold averageRssi
  rw [foldlM_addSample samples hroom, Exec.ok_bind]
  simp [exactResult]

/-! ## The law of the average -/

/-- What a result says about its samples. -/
structure Averages (samples : List Int) (result : RssiAverageResult) : Prop where
  counts : result.validCount + result.failedCount = samples.length
  validCount : result.validCount = (validSamples samples).length
  average : 0 < result.validCount →
    result.average = (validSamples samples).sum.tdiv (validSamples samples).length
  /-- The average lies between the smallest and the largest valid sample. -/
  between : 0 < result.validCount → ∀ lo hi, (∀ rssi ∈ validSamples samples, lo ≤ rssi ∧ rssi ≤ hi) →
    lo ≤ result.average ∧ result.average ≤ hi
  range : 0 < result.validCount → -127 ≤ result.average ∧ result.average ≤ -20
  noData : result.validCount = 0 → result.average = 0

theorem bounds_of_validSamples (samples : List Int) :
    ∀ rssi ∈ validSamples samples, -127 ≤ rssi ∧ rssi ≤ -20 := by
  intro rssi hrssi
  exact isValidRssi_iff.1 (List.mem_filter.1 hrssi).2

/-- Bounds of the samples bound their average. -/
theorem tdiv_between {samples : List Int} (hpos : 0 < samples.length) {lo hi : Int}
    (hbounds : ∀ rssi ∈ samples, lo ≤ rssi ∧ rssi ≤ hi) :
    lo ≤ samples.sum.tdiv samples.length ∧ samples.sum.tdiv samples.length ≤ hi := by
  have hlower : samples.length • lo ≤ samples.sum :=
    List.card_nsmul_le_sum samples lo fun rssi hrssi => (hbounds rssi hrssi).1
  have hupper : samples.sum ≤ samples.length • hi :=
    List.sum_le_card_nsmul samples hi fun rssi hrssi => (hbounds rssi hrssi).2
  -- the quotient of a sum between `lo * n` and `hi * n`, whichever sign it has
  rw [nsmul_eq_mul, mul_comm] at hlower hupper
  exact CInt.tdiv_mem_of_mul_le (by exact_mod_cast hpos) hlower hupper

theorem averages_exactResult (samples : List Int) : Averages samples (exactResult samples) := by
  have haverage : 0 < (validSamples samples).length → (exactResult samples).average
      = (validSamples samples).sum.tdiv (validSamples samples).length := fun h => if_pos h
  have hcount : 0 < (exactResult samples).validCount → 0 < (validSamples samples).length := by
    intro h
    exact Int.natCast_pos.1 h
  have hbetween : 0 < (exactResult samples).validCount → ∀ lo hi,
      (∀ rssi ∈ validSamples samples, lo ≤ rssi ∧ rssi ≤ hi) →
      lo ≤ (exactResult samples).average ∧ (exactResult samples).average ≤ hi := by
    intro h lo hi hbounds
    rw [haverage (hcount h)]
    exact tdiv_between (hcount h) hbounds
  refine ⟨?_, rfl, fun h => haverage (hcount h), hbetween, fun h => ?_, fun h => ?_⟩
  · simp [exactResult]
  · exact hbetween h _ _ (bounds_of_validSamples samples)
  · have hzero : (validSamples samples).length = 0 := Int.natCast_eq_zero.1 h
    exact if_neg (by omega)

/-- One list comes from another by permuting it, and by inserting and removing invalid samples. -/
inductive Rearranged : List Int → List Int → Prop
  | perm {samples samples' : List Int} : samples.Perm samples' → Rearranged samples samples'
  | insert (before after : List Int) {rssi : Int} :
      isValidRssi rssi = false → Rearranged (before ++ after) (before ++ rssi :: after)
  | remove (before after : List Int) {rssi : Int} :
      isValidRssi rssi = false → Rearranged (before ++ rssi :: after) (before ++ after)
  | trans {samples samples' samples'' : List Int} :
      Rearranged samples samples' → Rearranged samples' samples'' → Rearranged samples samples''

theorem validSamples_insert (before after : List Int) {rssi : Int} (h : isValidRssi rssi = false) :
    validSamples (before ++ rssi :: after) = validSamples (before ++ after) := by
  simp [validSamples, h]

/-- The valid samples stay the same, up to their order. -/
theorem Rearranged.validSamples_perm {samples samples' : List Int}
    (h : Rearranged samples samples') : (validSamples samples).Perm (validSamples samples') := by
  induction h with
  | perm hperm => exact hperm.filter _
  | insert before after hinvalid => rw [validSamples_insert before after hinvalid]
  | remove before after hinvalid => rw [validSamples_insert before after hinvalid]
  | trans _ _ ih ih' => exact ih.trans ih'

theorem Rearranged.exactResult_eq {samples samples' : List Int} (h : Rearranged samples samples') :
    (exactResult samples').average = (exactResult samples).average ∧
      (exactResult samples').validCount = (exactResult samples).validCount := by
  have hperm := h.validSamples_perm
  simp only [exactResult, hperm.length_eq, hperm.sum_eq, and_self]

/-- With no valid sample, the task publishes nothing. -/
theorem task_of_noData {apInfos : SensorWiFiStrength.ApInfos} {result : RssiAverageResult}
    (hresult : averageRssi apInfos.rssiSamples = ⟨[], .ok result⟩) (hnone : result.validCount = 0) :
    SensorWiFiStrength.task apInfos = ⟨[], .ok ⟨[], 1000⟩⟩ := by
  unfold SensorWiFiStrength.task
  rw [hresult, Exec.ok_bind, if_pos hnone]
  rfl

/-- **The averaging law.** -/
theorem averageRssi_law {samples : List Int} (hlength : samples.length * 127 < 2 ^ 31) :
    ∃ result, averageRssi samples = ⟨[], .ok result⟩ ∧ Averages samples result ∧
      (∀ samples', samples'.length * 127 < 2 ^ 31 → Rearranged samples samples' →
        ∃ result', averageRssi samples' = ⟨[], .ok result'⟩ ∧ result'.average = result.average ∧
          result'.validCount = result.validCount) ∧
      ∀ apInfos : SensorWiFiStrength.ApInfos, apInfos.rssiSamples = samples →
        result.validCount = 0 → SensorWiFiStrength.task apInfos = ⟨[], .ok ⟨[], 1000⟩⟩ := by
  refine ⟨exactResult samples, averageRssi_eq hlength, averages_exactResult samples, ?_, ?_⟩
  · intro samples' hlength' hrearranged
    exact ⟨exactResult samples', averageRssi_eq hlength', hrearranged.exactResult_eq⟩
  · rintro apInfos rfl hnone
    exact task_of_noData (averageRssi_eq hlength) hnone

/-- Three valid samples and an invalid one. -/
theorem averageRssi_law_three :
    ∃ result, averageRssi [-50, -60, 0, -70] = ⟨[], .ok result⟩ ∧
      Averages [-50, -60, 0, -70] result := by
  obtain ⟨result, hresult, haverages, -⟩ := @averageRssi_law [-50, -60, 0, -70] (by decide)
  exact ⟨result, hresult, haverages⟩

end SensorWiFiInfoLogic

end CroniotWatering
