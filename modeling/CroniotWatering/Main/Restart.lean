import CroniotWatering.Library.Writer
import CroniotWatering.Main.OtaGate

set_option autoImplicit false

/-! # Before a restart

`configureOta` of `main/main.cpp` has three pins written before the firmware restarts into an update. The
tasks are not stopped for that. It is enough that the two that drive these pins have nothing to do. -/

namespace CroniotWatering.Firmware

open TaskSystem TaskWaterPlants WaterSequenceController WateringCycle

/-- The argument of `setBeforeRestart`. -/
def beforeRestart : List Action :=
  [.gpioSetLevel pinWaterPump kPumpOff, .gpioSetLevel pinElectricValve1 kValveLineIdle,
    .gpioSetLevel pinElectricValve2 kValveLineIdle]

/-! ## The pins of the watering -/

/-- The tasks that write them. -/
def DrivesWatering (t : TaskId) : Prop := t = .waterPlants ∨ t = .waterPumpSwitch

def wateringPins (levels : Levels) : Int × Int × Int :=
  (levels pinWaterPump, valveLines levels)

/-- What an action does to them. -/
def writePins (a : Action) (ls : Int × Int × Int) : Int × Int × Int :=
  ((pumpWrite a).getD ls.1, writeLines a ls.2)

theorem wateringPins_apply (a : Action) (levels : Levels) :
    wateringPins (a.apply levels) = writePins a (wateringPins levels) :=
  Prod.ext (apply_pump a levels) (valveLines_apply a levels)

theorem firmware_owns_wateringPins : firmware.OwnedBy DrivesWatering wateringPins writePins where
  view_apply := wateringPins_apply
  frame := by
    intro t ht a ha ls
    simp only [DrivesWatering, not_or] at ht
    cases a with
    | gpioSetLevel pin level =>
        rcases prescribed_write ha with hplants | ⟨hswitch, -⟩ | hpin
        · exact absurd hplants ht.1
        · exact absurd hswitch ht.2
        · rw [hpin]
          rfl
    | _ => rfl

/-! ## The restart -/

/-- **The pins at a restart.** From any reachable state in which the watering task and the pump switch wait,
    wherever they have left their pins: if neither takes a message while `beforeRestart` runs, the pins are
    at rest afterwards, and the gate would open, whatever the other tasks do meanwhile. -/
theorem wateringIdle_of_beforeRestart {σ₀ : Levels} {h ls : History} {s s' : State}
    (hrun : firmware.Run σ₀ h s) (hplants : s.thread .waterPlants = .waiting)
    (hswitch : s.thread .waterPumpSwitch = .waiting)
    (hcall : firmware.WriteCall s beforeRestart ls s')
    (hquiet : ∀ m, .receive .waterPlants m ∉ ls ∧ .receive .waterPumpSwitch m ∉ ls) :
    PinsIdle s'.store ∧ wateringIdle.eval s'.store = true := by
  have hidle : System.Idle DrivesWatering s := by
    rintro t (rfl | rfl)
    · exact ⟨hplants, constructed_of_waiting hrun hplants⟩
    · exact ⟨hswitch, constructed_of_waiting hrun hswitch⟩
  have hpins := hcall.view_eq firmware_owns_wateringPins (System.Run.sound hrun) hidle (by
    rintro t (rfl | rfl) m
    · exact (hquiet m).1
    · exact (hquiet m).2)
  -- the three writes leave nothing of what was there
  have hwritten : beforeRestart.foldl (fun ls a => writePins a ls) (wateringPins s.store)
      = (kPumpOff, levelsOf (false, false)) := rfl
  rw [hwritten] at hpins
  have hrest : PinsIdle s'.store := (pinsIdle_iff _).2 (Prod.mk.inj hpins)
  exact ⟨hrest, (wateringIdle_eval _).2 hrest⟩

/-- After one watering of five seconds the gate is shut; the writes open it. -/
theorem wateringIdle_of_beforeRestart_five :
    ∃ h s s', firmware.Run (fun _ => 0) h s ∧ openWrite ∈ acts TaskId.waterPlants h ∧
      firmware.WriteCall s beforeRestart [] s' ∧ wateringIdle.eval s'.store = true := by
  obtain ⟨h, levels, hrun, hopen, -⟩ := exists_watered_off fun _ => 0
  have hcall := @System.writeCall_alone _ _ _ _ _ firmware (idleState levels) beforeRestart
  have hrest := wateringIdle_of_beforeRestart hrun rfl rfl hcall (by simp)
  exact ⟨h, _, _, hrun, hopen, hcall, hrest.2⟩

end CroniotWatering.Firmware
