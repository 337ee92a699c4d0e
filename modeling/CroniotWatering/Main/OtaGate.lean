import CroniotWatering.Library.Reader
import CroniotWatering.Main.Pump

set_option autoImplicit false

/-! # The update gate

`wateringIdle` of `main/main.cpp`: a firmware update may start when the pump is off and neither valve
line is driven. The three pins are read one after the other, while the tasks go on.

The gate asks for both lines low, and the watering task leaves the second line high from its first
sequence on. So the gate is never fooled by a single state in the middle of a sequence; but after one
sequence it does not open at rest either, and when it does answer yes, it has put the answer together
from different moments. -/

namespace CroniotWatering.Firmware

open TaskSystem TaskWaterPlants WaterSequenceController WateringCycle

def kPumpOff : Int := 1
def kValveLineIdle : Int := 0

/-- `wateringIdle`, read by read. -/
def wateringIdle : ReadProg Levels :=
  .allOf
    [fun levels => levels pinWaterPump = kPumpOff,
      fun levels => levels pinElectricValve1 = kValveLineIdle,
      fun levels => levels pinElectricValve2 = kValveLineIdle]

/-- The condition it tests. -/
def PinsIdle (levels : Levels) : Prop :=
  levels pinWaterPump = kPumpOff ∧ levels pinElectricValve1 = kValveLineIdle ∧
    levels pinElectricValve2 = kValveLineIdle

theorem wateringIdle_eval (levels : Levels) :
    wateringIdle.eval levels = true ↔ PinsIdle levels := by
  simp [wateringIdle, ReadProg.eval_allOf, PinsIdle]

theorem pinsIdle_iff (levels : Levels) :
    PinsIdle levels ↔ levels pinWaterPump = kPumpOff ∧ valveLines levels = levelsOf (false, false) :=
  and_congr_right fun _ => (@valveLines_eq_iff levels (false, false)).symm

/-! ## The gate at rest -/

/-- After one watering of five seconds all tasks wait, the pump is off and the first line low; the
    valve has been opened. -/
theorem exists_watered_off (σ₀ : Levels) :
    ∃ h levels, firmware.Run σ₀ h (idleState levels) ∧ openWrite ∈ acts .waterPlants h ∧
      levels pinWaterPump = kPumpOff ∧ levels pinElectricValve1 = kValveLineIdle := by
  have haccepted : requestedSeconds (request "5") = some 5 := by decide
  obtain ⟨h, levels, hrun, hopen, -, hswitch⟩ := exists_watered σ₀ haccepted
  have hoff : NeverSwitchedOn h := by
    intro m hm
    rw [hswitch] at hm
    cases hm
  obtain ⟨p, hp⟩ := exists_phase hrun nofun
  have hlines := hp.lines
  rw [hp.of_waiting rfl] at hlines
  exact ⟨h, levels, hrun, hopen, hoff.pump_off_of_waiting hrun rfl, (valveLines_eq_iff.1 hlines).1⟩

/-- **The gate at rest.** While the watering task waits and the pump is off, the gate is open exactly
    if no watering has been accepted since boot. -/
theorem wateringIdle_waiting_iff {σ₀ : Levels} {h : History} {s : State}
    (hrun : firmware.Run σ₀ h s) (hwaiting : s.thread .waterPlants = .waiting)
    (hpump : s.store pinWaterPump = kPumpOffLevel) :
    wateringIdle.eval s.store = true
      ↔ ∀ m ∈ received .waterPlants h, requestedSeconds m = none := by
  have hcons := constructed_of_waiting hrun hwaiting
  obtain ⟨p, hp⟩ := exists_phase hrun hcons
  have hlines : valveLines s.store = levelsOf (false, accepted h) := by
    rw [hp.lines, hp.of_waiting hwaiting]
    rfl
  rw [wateringIdle_eval, pinsIdle_iff, ← accepted_eq_false_iff, hlines]
  constructor
  · rintro ⟨-, hlow⟩
    exact (Prod.mk.inj (levelsOf_injective hlow)).2
  · intro hrejected
    exact ⟨hpump, by rw [hrejected]⟩

/-- Booted, the gate is open. -/
theorem wateringIdle_waiting_booted :
    ∃ h s, firmware.Run (fun _ => 0) h s ∧ wateringIdle.eval s.store = true := by
  obtain ⟨h, levels, hrun, ⟨hpump, -⟩, hquiet⟩ := exists_booted fun _ => 0
  refine ⟨h, idleState levels, hrun, (wateringIdle_waiting_iff hrun rfl hpump).2 ?_⟩
  rw [(hquiet _).2]
  exact nofun

/-- After one watering of five seconds it is shut, with the task waiting and the pump off. -/
theorem wateringIdle_shut_after_watering :
    ¬ ∀ (σ₀ : Levels) (h : History) (s : State), firmware.Run σ₀ h s →
      s.thread .waterPlants = .waiting → s.store pinWaterPump = kPumpOffLevel →
      wateringIdle.eval s.store = true := by
  intro hclaim
  obtain ⟨h, levels, hrun, hopen, hpump, -⟩ := exists_watered_off fun _ => 0
  have hidle := hclaim _ h _ hrun rfl hpump
  rw [wateringIdle_eval, pinsIdle_iff, lines_low_iff hrun nofun] at hidle
  exact hidle.2 hopen

/-! ## The gate in the middle of a sequence -/

/-- The watering task has performed the first write of `openWaterValve` for its message, and has not
    finished the last delay of its close phase. -/
def MidSequence (h : History) (s : State) : Prop :=
  ∃ m todo, s.thread .waterPlants = .running m todo ∧ openWrite ∈ progress .waterPlants h ∧
    Action.delayEnd 1000 ∈ todo

/-- **No snapshot of a sequence looks like rest**, whatever the pump switch does. -/
theorem wateringIdle_midSequence {σ₀ : Levels} {h : History} {s : State}
    (hrun : firmware.Run σ₀ h s) (hmid : MidSequence h s) : wateringIdle.eval s.store = false := by
  obtain ⟨m, todo, hr, hopen, -⟩ := hmid
  have hcons := System.Run.constructed_of_started TaskId.registerTasks_nodup hrun
    (t := .waterPlants) (by rw [hr]; exact nofun)
  have hacts : openWrite ∈ acts .waterPlants h :=
    (progress_prefix_acts .waterPlants h).subset hopen
  rw [Bool.eq_false_iff, Ne, wateringIdle_eval, pinsIdle_iff, lines_low_iff hrun hcons]
  exact fun hrest => hrest.2 hacts

/-- A watering of five seconds, after its first write. -/
theorem wateringIdle_midSequence_five :
    ∃ h s, firmware.Run (fun _ => 0) h s ∧ MidSequence h s ∧ wateringIdle.eval s.store = false := by
  obtain ⟨h, levels, hrun, -, -⟩ := exists_booted fun _ => 0
  have haccepted : requestedSeconds (request "5") = some 5 := by decide
  obtain ⟨todo, hm, hdelay⟩ := actions_opening haccepted
  obtain ⟨h', s', hrun', hmid⟩ : ∃ h s, firmware.Run (fun _ => 0) h s ∧ MidSequence h s := by
    refine ⟨_, _, hrun.trans (steps_begin levels hm), request "5", todo, ?_, ?_, hdelay⟩
    · simp only [Function.update_self]
    · rw [System.progress_beginEvents]
      decide
  exact ⟨h', s', hrun', hmid, wateringIdle_midSequence hrun' hmid⟩

/-! ## The gate read by read -/

/-- **A call that answers yes** has passed through the state it reports exactly if no valve had been
    opened when it began. -/
theorem wateringIdle_call_iff {σ₀ : Levels} {h ls : History} {s s' : State}
    (hrun : firmware.Run σ₀ h s) (hcons : System.Constructed s .waterPlants)
    (hcall : firmware.Call s wateringIdle ls s' true) :
    firmware.Visits s ls s' PinsIdle ↔ openWrite ∉ acts .waterPlants h := by
  constructor
  · rintro ⟨l₁, l₂, s₁, -, hsteps, -, hrest⟩
    have hlow := (lines_low_iff (hrun.trans hsteps) (hsteps.constructed hcons)).1
      ((pinsIdle_iff _).1 hrest).2
    rw [acts_append] at hlow
    exact fun hopen => hlow (List.mem_append_right _ hopen)
  · intro hunopened
    -- the pump was read first, and the lines are low from the start
    have hpump : s.store pinWaterPump = kPumpOff := of_decide_eq_true hcall.first
    refine ⟨[], ls, s, (List.append_nil ls).symm, .refl, hcall.steps, ?_⟩
    exact (pinsIdle_iff _).2 ⟨hpump, (lines_low_iff hrun hcons).2 hunopened⟩

/-- Booted, a call answers yes and is right. -/
theorem wateringIdle_call_booted :
    ∃ h s, firmware.Run (fun _ => 0) h s ∧ firmware.Call s wateringIdle [] s true ∧
      firmware.Visits s [] s PinsIdle := by
  obtain ⟨h, levels, hrun, hrest, hquiet⟩ := exists_booted fun _ => 0
  have hlevels : PinsIdle levels := (pinsIdle_iff levels).2 hrest
  have hcall : firmware.Call (idleState levels) wateringIdle [] (idleState levels) true :=
    System.call_of_eval (by simpa [PinsIdle, idleState] using hlevels)
  refine ⟨h, _, hrun, hcall, (wateringIdle_call_iff hrun nofun hcall).2 ?_⟩
  rw [(hquiet _).1]
  exact nofun

/-- A call that reads the pump and the first line at rest after one watering, and the second line
    when the next one has begun, answers yes; the pins were never at rest in between. -/
theorem wateringIdle_call_torn :
    ¬ ∀ (σ₀ : Levels) (h ls : History) (s s' : State), firmware.Run σ₀ h s →
      System.Constructed s .waterPlants → firmware.Call s wateringIdle ls s' true →
      firmware.Visits s ls s' PinsIdle := by
  intro hclaim
  have haccepted : requestedSeconds (request "5") = some 5 := by decide
  obtain ⟨h, levels, hrun, hopen, hpump, hline⟩ := exists_watered_off fun _ => 0
  obtain ⟨todo, hm, -⟩ := actions_opening haccepted
  have hsteps := steps_begin levels hm
  have hcall : firmware.Call (idleState levels) wateringIdle _ _ true :=
    .test (if_pos (decide_eq_true hpump)) .refl
      (.test (if_pos (decide_eq_true hline)) hsteps (.last (if_pos rfl)))
  obtain ⟨l₁, l₂, s₁, -, hsteps₁, -, hrest⟩ := hclaim _ h _ _ _ hrun nofun hcall
  have hlow := (lines_low_iff (hrun.trans hsteps₁) (hsteps₁.constructed nofun)).1
    ((pinsIdle_iff _).1 hrest).2
  rw [acts_append] at hlow
  exact hlow (List.mem_append_right _ hopen)

end CroniotWatering.Firmware
