import CroniotWatering.Main.Boot

set_option autoImplicit false

/-! # The two valve lines

The motor of the valve has one line for each direction. The constructor leaves both low, and they stay
so until a valve is first opened. `closeWaterValve` raises the second line before it lowers the first,
and no code lowers the second again but `openWaterValve`, after it has raised the first. So from the
first close phase on, every phase that drives the valve begins with both lines high. -/

namespace CroniotWatering.Firmware

open TaskSystem TaskWaterPlants WaterSequenceController WateringCycle

/-! ## The writes that tell -/

/-- The first write of `openWaterValve`, which no other code of the task makes. -/
def openWrite : Action := .gpioSetLevel pinElectricValve1 1

/-- The first write of `closeWaterValve`, which no other code for a message makes. -/
def closeWrite : Action := .gpioSetLevel pinElectricValve2 1

theorem mem_operations {op : Op} {h : History} :
    op ∈ operations h ↔ actionOf op ∈ acts .waterPlants h := mem_filterMap_opOf

/-- A task that has acted is constructed. -/
theorem constructed_of_acts {σ₀ : Levels} {h : History} {s : State} (hrun : firmware.Run σ₀ h s)
    {t : TaskId} (hacts : acts t h ≠ []) : System.Constructed s t := by
  refine System.Run.constructed_of_started TaskId.registerTasks_nodup hrun fun habs => ?_
  exact hacts (System.Run.of_absent hrun habs).1

/-- A task that waits is constructed. -/
theorem constructed_of_waiting {σ₀ : Levels} {h : History} {s : State} (hrun : firmware.Run σ₀ h s)
    {t : TaskId} (hwaiting : s.thread t = .waiting) : System.Constructed s t :=
  System.Run.constructed_of_started TaskId.registerTasks_nodup hrun (by rw [hwaiting]; exact nofun)

theorem accepted_eq_false_iff (h : History) :
    accepted h = false ↔ ∀ m ∈ received .waterPlants h, requestedSeconds m = none := by
  simp [accepted, accepts]

/-! ## Both low -/

/-- **Both lines are low** exactly as long as no valve has been opened. -/
theorem lines_low_iff {σ₀ : Levels} {h : History} {s : State} (hrun : firmware.Run σ₀ h s)
    (hcons : System.Constructed s .waterPlants) :
    valveLines s.store = levelsOf (false, false) ↔ openWrite ∉ acts .waterPlants h := by
  obtain ⟨p, hp⟩ := exists_phase hrun hcons
  have hopen : openWrite ∈ acts .waterPlants h ↔ p ≠ .rest false :=
    mem_operations.symm.trans (raise1_mem_iff hp.track)
  rw [hopen, not_not, ← WateringCycle.lines_low_iff, hp.lines]
  exact ⟨levelsOf_injective, congrArg levelsOf⟩

/-! ## Both high -/

/-- In no state the run has passed through since the watering task was constructed were both lines
    high. -/
def NeverBothHigh (σ₀ : Levels) (h : History) : Prop :=
  ∀ h' s', h' <:+ h → firmware.Run σ₀ h' s' → System.Constructed s' .waterPlants →
    ¬ (s'.store pinElectricValve1 = 1 ∧ s'.store pinElectricValve2 = 1)

/-- Right after the first write of `closeWaterValve` both lines are high. -/
theorem both_high_of_closeWrite {σ₀ : Levels} {h : History} {s : State} {as : List Action}
    (hrun : firmware.Run σ₀ h s) (has : acts .waterPlants h = closeWrite :: as) :
    valveLines s.store = levelsOf (true, true) := by
  obtain ⟨p', hp'⟩ := exists_phase hrun (constructed_of_acts hrun (by rw [has]; exact nofun))
  have hops : operations h = .raise2 :: as.filterMap opOf := by
    rw [operations, has]
    rfl
  have htrack := hp'.track
  rw [hops] at htrack
  obtain ⟨p, -, hnext⟩ := Option.bind_eq_some_iff.1 htrack
  rw [hp'.lines]
  cases moves_of_next hnext with
  | raise2 => rfl

/-- **Both lines have been high** exactly if `closeWaterValve` has begun once. -/
theorem neverBothHigh_iff {σ₀ : Levels} {h : History} {s : State} (hrun : firmware.Run σ₀ h s) :
    NeverBothHigh σ₀ h ↔ closeWrite ∉ acts .waterPlants h := by
  refine ⟨fun hnever hclose => ?_, ?_⟩
  · -- the part of the history up to that write
    obtain ⟨as, bs, hsplit⟩ := List.append_of_mem hclose
    obtain ⟨h', hsuffix, hacts⟩ := exists_suffix_of_acts ⟨as, hsplit.symm⟩
    obtain ⟨s', -, hrun', -⟩ := System.Run.of_suffix hrun hsuffix
    have hcons := constructed_of_acts hrun' (t := .waterPlants) (by rw [hacts]; exact nofun)
    exact hnever h' s' hsuffix hrun' hcons
      (valveLines_eq_iff.1 (both_high_of_closeWrite hrun' hacts))
  · rintro hclose h' s' ⟨ls, rfl⟩ hrun' hcons hboth
    obtain ⟨p, hp⟩ := exists_phase hrun' hcons
    have hhigh : valveLines s'.store = levelsOf (true, true) := valveLines_eq_iff.2 hboth
    have hlines : p.lines = (true, true) := levelsOf_injective (hp.lines.symm.trans hhigh)
    have hmem : closeWrite ∈ acts .waterPlants h' :=
      mem_operations.1 (raise2_mem_of_closedOnce hp.track (closedOnce_of_lines hlines))
    rw [acts_append] at hclose
    exact hclose (List.mem_append_right _ hmem)

/-- No operation of the cycle is carried out for rejected messages. -/
theorem operations_eq_nil {σ₀ : Levels} {h : History} {s : State} (hrun : firmware.Run σ₀ h s)
    (hrejected : ∀ m ∈ received .waterPlants h, requestedSeconds m = none) : operations h = [] := by
  refine List.filterMap_eq_nil_iff.2 fun a ha => ?_
  obtain ⟨m, hm⟩ := mem_acts.1 ha
  have hnone := filterMap_actions m
  rw [hrejected m (System.Run.mem_received_of_act hrun hm)] at hnone
  exact List.filterMap_eq_nil_iff.1 hnone a (System.Run.mem_handle hrun hm)

/-- **The two lines driven together.** They have been exactly if `closeWaterValve` has begun once. As
    long as every message is rejected they never are; and when the watering task waits again after a
    message it accepted, they have been. -/
theorem neverBothHigh_of_rejected {σ₀ : Levels} {h : History} {s : State}
    (hrun : firmware.Run σ₀ h s) :
    (NeverBothHigh σ₀ h ↔ closeWrite ∉ acts .waterPlants h) ∧
    ((∀ m ∈ received .waterPlants h, requestedSeconds m = none) → NeverBothHigh σ₀ h) ∧
    (s.thread .waterPlants = .waiting → NeverBothHigh σ₀ h →
      ∀ m ∈ received .waterPlants h, requestedSeconds m = none) := by
  have hexact := neverBothHigh_iff hrun
  rw [hexact]
  refine ⟨Iff.rfl, fun hrejected hclose => ?_, fun hwaiting hclose => ?_⟩
  · have hmem : Op.raise2 ∈ operations h := mem_operations.2 hclose
    rw [operations_eq_nil hrun hrejected] at hmem
    cases hmem
  · obtain ⟨p, hp⟩ := exists_phase hrun (constructed_of_waiting hrun hwaiting)
    rw [← accepted_eq_false_iff, Bool.eq_false_iff]
    intro haccepted
    refine hclose (mem_operations.1 (raise2_mem_of_closedOnce hp.track ?_))
    rw [hp.of_waiting hwaiting, haccepted]
    rfl

/-- Booted, the lines have not been high together. -/
theorem neverBothHigh_booted :
    ∃ h s, firmware.Run (fun _ => 0) h s ∧ NeverBothHigh (fun _ => 0) h ∧
      closeWrite ∉ acts .waterPlants h ∧ ∀ m ∈ received .waterPlants h, requestedSeconds m = none := by
  obtain ⟨h, levels, hrun, -, hquiet⟩ := exists_booted fun _ => 0
  have hnever : NeverBothHigh (fun _ => 0) h := by
    refine (neverBothHigh_of_rejected hrun).2.1 ?_
    rw [(hquiet _).2]
    exact nofun
  obtain ⟨hexact, -, hwaiting⟩ := neverBothHigh_of_rejected hrun
  exact ⟨h, _, hrun, hnever, hexact.1 hnever, hwaiting rfl hnever⟩

/-- After one watering of five seconds they have. -/
theorem both_high_in_watering :
    ¬ ∀ (σ₀ : Levels) (h : History) (s : State), firmware.Run σ₀ h s → NeverBothHigh σ₀ h := by
  intro hclaim
  have haccepted : requestedSeconds (request "5") = some 5 := by decide
  obtain ⟨h, levels, hrun, hopen, hreceived, -⟩ := exists_watered (fun _ => 0) haccepted
  obtain ⟨p, hp⟩ := exists_phase hrun nofun
  have hrest : accepted h = true := by
    rw [accepted, hreceived]
    decide
  have hclosed : Op.raise2 ∈ operations h := by
    refine raise2_mem_of_closedOnce hp.track ?_
    rw [hp.of_waiting rfl, hrest]
    rfl
  exact (neverBothHigh_iff hrun).1 (hclaim _ h _ hrun) (mem_operations.1 hclosed)

end CroniotWatering.Firmware
