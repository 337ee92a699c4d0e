import CroniotWatering.Main.Pins

set_option autoImplicit false

/-! # The phase of the watering in a run

In every run of the firmware the watering task is, at every moment, in one phase of the watering
cycle. The phase is read off the task's own history; it fixes the levels of both valve lines and
what the task still has to do, under any interleaving with the other tasks. -/

namespace CroniotWatering.Firmware

open TaskSystem TaskWaterPlants WateringCycle

/-! ## Lines and levels -/

/-- The level of a line that is high or not. -/
def level (high : Bool) : Int := if high then 1 else 0

def levelsOf (ls : Bool × Bool) : Int × Int := (level ls.1, level ls.2)

theorem level_injective {x y : Bool} (h : level x = level y) : x = y := by
  revert x y
  decide

theorem levelsOf_injective {ls ls' : Bool × Bool} (h : levelsOf ls = levelsOf ls') : ls = ls' := by
  obtain ⟨h₁, h₂⟩ := Prod.mk.inj h
  exact Prod.ext (level_injective h₁) (level_injective h₂)

theorem valveLines_eq_iff {levels : Levels} {ls : Bool × Bool} :
    valveLines levels = levelsOf ls
      ↔ levels pinElectricValve1 = level ls.1 ∧ levels pinElectricValve2 = level ls.2 :=
  Prod.ext_iff

theorem writeLines_actionOf (op : Op) (ls : Bool × Bool) :
    writeLines (actionOf op) (levelsOf ls) = levelsOf (op.drive ls) := by
  cases op <;> rfl

theorem writeLines_of_ignored {a : Action} (h : ignored a = true) (ls : Int × Int) :
    writeLines a ls = ls := by
  cases a with
  | gpioSetLevel => cases h
  | _ => rfl

/-- The task's actions drive the lines as the operations they carry out. -/
theorem foldr_writeLines {as : List Action} (has : Covered as) (ls : Bool × Bool) :
    as.foldr writeLines (levelsOf ls) = levelsOf ((as.filterMap opOf).foldr Op.drive ls) := by
  induction as with
  | nil => rfl
  | cons a as ih =>
      obtain ⟨ha, has⟩ := List.forall_mem_cons.1 has
      rw [List.foldr_cons, ih has]
      cases hop : opOf a with
      | none => rw [List.filterMap_cons_none hop, writeLines_of_ignored (ha hop)]
      | some op =>
          rw [List.filterMap_cons_some hop, List.foldr_cons, (opOf_classifies a op).1 hop]
          exact writeLines_actionOf op _

/-! ## The monitor of the watering task -/

theorem conforms : firmware.Conforms .waterPlants plantsNext (fun p => ∃ used, p = .rest used) settle where
  handle := by
    rintro p ⟨used, rfl⟩ m
    exact run_actions used m
  rest := by
    rintro p ⟨used, rfl⟩ m
    unfold settle
    split
    · exact ⟨true, rfl⟩
    · exact ⟨used, rfl⟩

/-- A message with a duration the task accepts. -/
def accepts (taskData : SimpleTaskData) : Bool := (requestedSeconds taskData).isSome

/-- Some message the watering task has taken was accepted. -/
def accepted (h : History) : Bool := (received .waterPlants h).any accepts

theorem settled_eq (h : History) :
    System.settled settle (.rest false) (received .waterPlants h) = .rest (accepted h) := by
  unfold accepted
  generalize received .waterPlants h = ms
  induction ms with
  | nil => rfl
  | cons m ms ih =>
      show settle (System.settled settle (.rest false) ms) m = _
      rw [ih, List.any_cons, settle]
      cases hm : accepts m with
      | true => exact if_pos hm
      | false => exact if_neg (Bool.eq_false_iff.1 hm)

/-! ## The phase -/

/-- The operations the watering task has carried out, newest first. -/
def operations (h : History) : List Op := (acts .waterPlants h).filterMap opOf

/-- In state `s`, reached by `h`, the watering is in phase `p`. -/
structure InPhase (h : History) (s : State) (p : Phase) : Prop where
  track : Monitor.track (next timing) (.rest false) (operations h) = some p
  /-- What the task has done for its latest message leads to the phase from a resting one. -/
  current : ∃ used, Monitor.track (next timing) (.rest used)
    ((progress .waterPlants h).filterMap opOf) = some p
  lines : valveLines s.store = levelsOf p.lines
  rest : Monitor.run plantsNext p (s.thread .waterPlants).remaining = some (.rest (accepted h))

theorem covered_acts {σ₀ : Levels} {h : History} {s : State} (hrun : firmware.Run σ₀ h s) :
    Covered (acts .waterPlants h) := by
  intro a ha
  obtain ⟨m, hm⟩ := mem_acts.1 ha
  exact covered_actions m a (System.Run.mem_handle hrun hm)

/-- **The phase exists.** Once the watering task is constructed, its watering is always in some
    phase. -/
theorem exists_phase {σ₀ : Levels} {h : History} {s : State} (hrun : firmware.Run σ₀ h s)
    (hcons : System.Constructed s .waterPlants) : ∃ p, InPhase h s p := by
  obtain ⟨-, p, htrack, hrest, _, ⟨used, rfl⟩, hcurrent⟩ :=
    System.Run.monitored conforms ⟨false, rfl⟩ hrun
  have hops : Monitor.track (next timing) (.rest false) (operations h) = some p :=
    Monitor.track_of_classified htrack
  refine ⟨p, hops, ⟨used, Monitor.track_of_classified hcurrent⟩, ?_, ?_⟩
  · have hview := System.Run.view_of_constructed firmware_owns_valveLines TaskId.registerTasks_nodup
      (TaskId.mem_registerTasks .waterPlants) hrun hcons
    -- the constructor leaves both lines low
    have hbase : (TaskWaterPlants.constructor.actions).foldl (fun ls a => writeLines a ls)
        (valveLines σ₀) = levelsOf (false, false) := rfl
    rw [hview]
    show (acts .waterPlants h).foldr writeLines
      ((TaskWaterPlants.constructor.actions).foldl (fun ls a => writeLines a ls) (valveLines σ₀)) = _
    rw [hbase, foldr_writeLines (covered_acts hrun), track_lines hops]
    rfl
  · rw [hrest, settled_eq]

/-- A task that waits is in its resting phase. -/
theorem InPhase.of_waiting {h : History} {s : State} {p : Phase} (hp : InPhase h s p)
    (hw : s.thread .waterPlants = .waiting) : p = .rest (accepted h) := by
  have hrest := hp.rest
  rw [hw] at hrest
  exact Option.some.inj hrest

end CroniotWatering.Firmware
