import CroniotWatering.Sensors.SensorBattery

set_option autoImplicit false

/-! # Failed reads of the battery

`readValueBlocking` reports a failed read as -1, and the loops take every negative value for a failure.
A successful read of less than -1 mV is taken for one, too; and a channel none of whose reads
succeeded counts as 0, which is published like any other value. -/

namespace CroniotWatering.SensorBattery

open ADS1115Controller

/-- The values the loop gets for the outcomes of its reads. -/
def adcValues (burst : Burst) : AdcValues where
  values := burst.outcomes.map readValueBlocking
  length_eq := by rw [List.length_map, burst.length_eq]

/-- What a cycle makes of the reads of its two channels: exactly the failed ones stay out, and from a
    channel without a successful one, nothing is published. -/
structure KeepsFailuresOut (current voltage : Burst) : Prop where
  excluded : ∀ outcome ∈ current.outcomes ++ voltage.outcomes,
    readValueBlocking outcome < 0 ↔ Ads1x15.sampleMv outcome = none
  averagesCurrent : current.readings ≠ [] →
    getBatteryCurrent (adcValues current) = currentOfMv current.meanMv
  averagesVoltage : voltage.readings ≠ [] →
    getBatteryVoltage (adcValues voltage) = voltageOfMv voltage.meanMv
  /-- The power is computed from both channels ... -/
  power : current.readings = [] ∨ voltage.readings = [] →
    ∀ publication ∈ (taskBattery (adcValues current) (adcValues voltage)).published,
      publication.sensorUid ≠ sensorBatteryPowerConsumption
  /-- ... and the percentage from the voltage. -/
  percentage : voltage.readings = [] →
    ∀ publication ∈ (taskBattery (adcValues current) (adcValues voltage)).published,
      publication.sensorUid ≠ sensorBatteryPercentage

/-- Some read of the channel succeeded, and none of a code below -5. -/
structure Sound (burst : Burst) : Prop where
  success : ∃ raw, some raw ∈ burst.outcomes
  codes : ∀ raw, some raw ∈ burst.outcomes → -5 ≤ raw.val

/-! ## Which reads count -/

/-- Truncation takes the codes from -5 upwards to values that are not negative. -/
theorem readValueBlocking_nonneg_iff (raw : Ads1x15.RawCode) :
    0 ≤ readValueBlocking (some raw) ↔ -5 ≤ raw.val := by
  have hmv : Ads1x15.defaultMv raw = raw.val * (3 / 16) := by
    rw [Ads1x15.defaultMv_eq]
    norm_num
  show 0 ≤ truncate (Ads1x15.defaultMv raw) ↔ _
  rw [hmv]
  unfold truncate
  by_cases hraw : 0 ≤ raw.val
  · have hcast : (0 : ℚ) ≤ raw.val := by exact_mod_cast hraw
    rw [if_pos (by positivity)]
    exact iff_of_true (Int.floor_nonneg.2 (by positivity)) (by omega)
  · have hcast : (raw.val : ℚ) < 0 := by exact_mod_cast (not_le.1 hraw)
    rw [if_neg (by linarith)]
    -- code -5 is -0.9375 mV, which rounds up to 0, and code -6 is below -1 mV
    have hceil : 0 ≤ ⌈(raw.val : ℚ) * (3 / 16)⌉ ↔ (-1 : ℚ) < raw.val * (3 / 16) := by
      rw [← Int.cast_one, ← Int.cast_neg, ← Int.lt_ceil]
      omega
    rw [hceil]
    constructor
    · intro h
      have hlt : (-6 : ℚ) < raw.val := by linarith
      have hint : -6 < raw.val := by exact_mod_cast hlt
      omega
    · intro h
      have hge : (-5 : ℚ) ≤ raw.val := by exact_mod_cast h
      linarith

theorem readings_eq_nil_iff (burst : Burst) :
    burst.readings = [] ↔ ∀ raw, some raw ∉ burst.outcomes := by
  rw [List.eq_nil_iff_forall_not_mem]
  constructor
  · intro h raw hraw
    exact h _ (Burst.mem_readings.2 ⟨raw, hraw, rfl⟩)
  · intro h value hvalue
    obtain ⟨raw, hraw, -⟩ := Burst.mem_readings.1 hvalue
    exact h raw hraw

/-- On a sound channel, the loop adds up and counts the readings of the reads that succeeded. -/
theorem Sound.accumulate_eq {burst : Burst} (h : Sound burst) :
    (adcValues burst).accumulate = ⟨burst.readings.sum, burst.readings.length⟩ := by
  have hnonneg : ∀ value ∈ burst.readings, 0 ≤ value := by
    intro value hvalue
    obtain ⟨raw, hraw, rfl⟩ := Burst.mem_readings.1 hvalue
    exact (readValueBlocking_nonneg_iff raw).2 (h.codes raw hraw)
  have hloop : (adcValues burst).accumulate = accumulate burst.outcomes := List.foldl_map
  exact hloop.trans (accumulate_of_nonneg hnonneg)

theorem Sound.readings_ne_nil {burst : Burst} (h : Sound burst) : burst.readings ≠ [] := by
  obtain ⟨raw, hraw⟩ := h.success
  intro hnil
  exact (readings_eq_nil_iff burst).1 hnil raw hraw

theorem excluded_iff {outcome : Ads1x15.Outcome}
    (h : ∀ raw, outcome = some raw → -5 ≤ raw.val) :
    readValueBlocking outcome < 0 ↔ Ads1x15.sampleMv outcome = none := by
  cases outcome with
  | none => exact iff_of_true (by decide) rfl
  | some raw =>
      have hvalue := (readValueBlocking_nonneg_iff raw).2 (h raw rfl)
      exact iff_of_false (by omega) nofun

/-! ## Which cycles keep failures out -/

/-- Both values are published in every cycle. -/
theorem mem_published (current voltage : AdcValues) {uid : Int}
    (h : uid = sensorBatteryPercentage ∨ uid = sensorBatteryPowerConsumption) :
    ∃ publication ∈ (taskBattery current voltage).published, publication.sensorUid = uid := by
  rcases h with rfl | rfl
  · exact ⟨_, List.mem_cons_self, rfl⟩
  · exact ⟨_, List.mem_cons_of_mem _ List.mem_cons_self, rfl⟩

theorem KeepsFailuresOut.codes {current voltage : Burst} (h : KeepsFailuresOut current voltage)
    {raw : Ads1x15.RawCode} (hraw : some raw ∈ current.outcomes ++ voltage.outcomes) :
    -5 ≤ raw.val := by
  have hcounts : ¬ readValueBlocking (some raw) < 0 := fun hneg =>
    absurd ((h.excluded _ hraw).1 hneg) nofun
  exact (readValueBlocking_nonneg_iff raw).1 (by omega)

theorem KeepsFailuresOut.readings_ne_nil {current voltage : Burst}
    (h : KeepsFailuresOut current voltage) : current.readings ≠ [] ∧ voltage.readings ≠ [] := by
  obtain ⟨publication, hmem, huid⟩ :=
    mem_published (adcValues current) (adcValues voltage) (Or.inr rfl)
  -- the power is there, which a channel without a success forbids
  refine ⟨fun hnil => ?_, fun hnil => ?_⟩
  · exact h.power (Or.inl hnil) publication hmem huid
  · exact h.power (Or.inr hnil) publication hmem huid

theorem exists_success {burst : Burst} (h : burst.readings ≠ []) :
    ∃ raw, some raw ∈ burst.outcomes := by
  by_contra hnone
  exact h ((readings_eq_nil_iff burst).2 fun raw hraw => hnone ⟨raw, hraw⟩)

/-- **Which cycles keep failures out**: those of two sound channels. -/
theorem keepsFailuresOut_iff (current voltage : Burst) :
    KeepsFailuresOut current voltage ↔ Sound current ∧ Sound voltage := by
  constructor
  · intro h
    obtain ⟨hcurrent, hvoltage⟩ := h.readings_ne_nil
    exact ⟨⟨exists_success hcurrent, fun raw hraw => h.codes (List.mem_append_left _ hraw)⟩,
      ⟨exists_success hvoltage, fun raw hraw => h.codes (List.mem_append_right _ hraw)⟩⟩
  · rintro ⟨hcurrent, hvoltage⟩
    -- the last two clauses are about channels that are not sound
    refine ⟨?_, ?_, ?_, ?_, ?_⟩
    · intro outcome houtcome
      refine excluded_iff fun raw hraw => ?_
      subst hraw
      rcases List.mem_append.1 houtcome with hmem | hmem
      · exact hcurrent.codes raw hmem
      · exact hvoltage.codes raw hmem
    · intro hreadings
      rw [getBatteryCurrent_of_accumulate hcurrent.accumulate_eq, if_neg (by simpa using hreadings)]
      rfl
    · intro hreadings
      rw [getBatteryVoltage_of_accumulate hvoltage.accumulate_eq, if_neg (by simpa using hreadings)]
      rfl
    · rintro (hnil | hnil)
      · exact absurd hnil hcurrent.readings_ne_nil
      · exact absurd hnil hvoltage.readings_ne_nil
    · intro hnil
      exact absurd hnil hvoltage.readings_ne_nil

/-- A channel none of whose reads succeeds. -/
def failedBurst : Burst where
  outcomes := List.replicate 20 none
  length_eq := List.length_replicate

/-- With the voltage channel dead, a percentage and a power are published all the same. -/
theorem not_keepsFailuresOut_failed :
    ¬ ∀ current voltage : Burst, KeepsFailuresOut current voltage := by
  intro hclaim
  have hvoltage := (hclaim (Burst.steady ⟨13419, by decide, by decide⟩) failedBurst).readings_ne_nil.2
  exact hvoltage ((readings_eq_nil_iff failedBurst).2 (by simp [failedBurst]))

end CroniotWatering.SensorBattery
