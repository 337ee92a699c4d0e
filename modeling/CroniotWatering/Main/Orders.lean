import CroniotWatering.Installation
import CroniotWatering.Main.Pump

set_option autoImplicit false

/-! # The firmware refines the installation

The watering task's operations, and all other writes of the pump pin, are orders to the installation. In
every run, under any interleaving, the orders so far are ones the installation takes, the pins show the
state they lead to, and every step of the firmware is a step of the installation or none. -/

namespace CroniotWatering.Firmware

open TaskSystem TaskWaterPlants WaterSequenceController WateringCycle

variable {σ₀ : Levels} {h : History} {s s' : State} {e : Event} {i : Installation}

/-! ## Orders -/

/-- A write of the pump pin, as the hand switch. -/
def handOrder (a : Action) : Option Order :=
  (pumpWrite a).map fun level => .switch (decide (level = kPumpOnLevel))

/-- The order an event gives: what the watering task does for a message is the cycle's, and any other
    write of the pump is the switch's or a constructor's. -/
def orderOf : Event → Option Order
  | .construct _ a => handOrder a
  | .act t _ a => if t = .waterPlants then (opOf a).map .cycle else handOrder a
  | _ => none

/-- The orders so far, newest first. -/
def orders (h : History) : List Order := h.filterMap orderOf

theorem handOrder_op? (a : Action) : (handOrder a).bind Order.op? = none := by
  unfold handOrder
  cases pumpWrite a <;> rfl

/-- The operation an event carries out, if it is of the cycle. -/
theorem filterMap_op?_cons (e : Event) (h : History) :
    (orders (e :: h)).filterMap Order.op?
      = ((orderOf e).bind Order.op?).toList ++ (orders h).filterMap Order.op? := by
  unfold orders
  cases horder : orderOf e with
  | none => simp [horder]
  | some order =>
      rw [List.filterMap_cons_some horder]
      cases order <;> rfl

/-- The cycle's orders are the operations of the watering task. -/
theorem filterMap_op?_orders (h : History) : (orders h).filterMap Order.op? = operations h := by
  induction h with
  | nil => rfl
  | cons e h ih =>
      rw [filterMap_op?_cons, ih]
      cases e with
      | start | receive | finish => rfl
      | construct t a =>
          rw [orderOf, handOrder_op?]
          rfl
      | act t m a =>
          by_cases ht : t = .waterPlants
          · cases hop : opOf a <;> simp [orderOf, operations, acts, ht, hop, Order.op?]
          · simp [orderOf, operations, acts, ht, handOrder_op?]

theorem findSome?_pump?_cons (e : Event) (h : History) :
    (orders (e :: h)).findSome? Order.pump?
      = ((orderOf e).bind Order.pump?).or ((orders h).findSome? Order.pump?) := by
  unfold orders
  cases horder : orderOf e with
  | none => simp [horder]
  | some order =>
      rw [List.filterMap_cons_some horder, List.findSome?_cons, Option.bind_some]
      cases order.pump? <;> rfl

/-! ## The pump -/

theorem pump?_handOrder {a : Action} (ha : ∀ level, pumpWrite a = some level →
    level = kPumpOnLevel ∨ level = kPumpOffLevel) :
    ((handOrder a).bind Order.pump?).map pumpLevel = pumpWrite a := by
  unfold handOrder
  cases hw : pumpWrite a with
  | none => rfl
  | some level =>
      rcases ha level hw with rfl | rfl <;> rfl

/-- An order switches the pump as the event does at the pin. -/
theorem pump?_orderOf (hrun : firmware.Run σ₀ h s) (hstep : firmware.Step s e s') :
    ((orderOf e).bind Order.pump?).map pumpLevel = e.effect.bind pumpWrite := by
  have hprescribes := @System.Run.prescribes _ _ _ _ _ _ _ _ _ s' hrun
  cases hstep with
  | start | receive | finish => rfl
  | construct hh hb =>
      refine pump?_handOrder fun level hw => ?_
      rcases construct_pump (hprescribes.1 (.construct hh hb)) with hnone | hoff
      · rw [hnone] at hw
        cases hw
      · rw [hoff] at hw
        exact Or.inr (Option.some.inj hw).symm
  | @act t m a todo hh hr =>
      have ha := hprescribes.2 m (.act hh hr)
      by_cases ht : t = .waterPlants
      · subst ht
        show _ = pumpWrite a
        rw [pumpWrite_eq (covered_actions m a ha)]
        simp only [orderOf, if_true]
        cases opOf a <;> rfl
      · simp only [orderOf, if_neg ht]
        refine pump?_handOrder fun level hw => ?_
        rcases handle_pump ha hw with ⟨rfl, -⟩ | ⟨-, ⟨hon, -⟩ | ⟨hoff, -⟩⟩
        · exact absurd rfl ht
        · exact Or.inl hon
        · exact Or.inr hoff

theorem store_pump (hstep : firmware.Step s e s') :
    s'.store pinWaterPump = (e.effect.bind pumpWrite).getD (s.store pinWaterPump) := by
  cases hstep with
  | construct | act => exact apply_pump _ _
  | start | receive | finish => rfl

theorem bootPumpOff_mem : bootPumpOff ∈ firmware.bootProgram := by
  refine List.mem_flatMap.2 ⟨.waterPlants, TaskId.mem_registerTasks _, ?_⟩
  exact List.mem_append_left _ (List.mem_map_of_mem (by decide))

/-- The watering task's constructor still has to switch the pump off after a step that leaves the pump
    alone. -/
theorem bootPumpOff_mem_of_step (hstep : firmware.Step s e s') (hmem : bootPumpOff ∈ s.boot)
    (hnone : (orderOf e).bind Order.pump? = none) : bootPumpOff ∈ s'.boot := by
  cases hstep with
  | receive | act | finish => exact hmem
  | start hh hb =>
      rw [hb] at hmem
      exact List.mem_of_ne_of_mem (by simp [bootPumpOff]) hmem
  | construct hh hb =>
      rw [hb] at hmem
      refine List.mem_of_ne_of_mem ?_ hmem
      intro heq
      cases heq
      cases hnone

/-- **The pump shows the latest order**, from its first write on. -/
theorem pump_pending_or_shown (hrun : firmware.Run σ₀ h s) :
    bootPumpOff ∈ s.boot ∨
      s.store pinWaterPump = pumpLevel (((orders h).findSome? Order.pump?).getD false) := by
  induction hrun with
  | refl => exact Or.inl bootPumpOff_mem
  | @snoc h s₁ s₂ e hrun hstep ih =>
      have hstore := store_pump hstep
      rw [← pump?_orderOf hrun hstep] at hstore
      rw [hstore, findSome?_pump?_cons]
      cases hpump : (orderOf e).bind Order.pump? with
      | some on => exact Or.inr rfl
      | none => exact ih.imp (fun hmem => bootPumpOff_mem_of_step hstep hmem hpump) id

/-! ## The refinement -/

/-- The pins show a state of the installation. -/
def Shows (levels : Levels) (i : Installation) : Prop :=
  valveLines levels = levelsOf i.phase.lines ∧ levels pinWaterPump = pumpLevel i.pump

/-- In state `s`, reached by `h`, the installation is in state `i`. -/
structure Refines (h : History) (s : State) (i : Installation) : Prop where
  track : Monitor.track (Installation.next timing) .initial (orders h) = some i
  shows : Shows s.store i
  rest : s.thread .waterPlants = .waiting → i.phase = .rest (accepted h)

theorem exists_refines (hrun : firmware.Run σ₀ h s) (hcons : System.Constructed s .waterPlants) :
    ∃ i, Refines h s i := by
  obtain ⟨p, hp⟩ := exists_phase hrun hcons
  refine ⟨⟨p, ((orders h).findSome? Order.pump?).getD false⟩, ?_, ⟨hp.lines, ?_⟩, hp.of_waiting⟩
  · have htrack := hp.track
    rw [← filterMap_op?_orders] at htrack
    rw [Installation.track_eq]
    exact congrArg _ htrack
  · rcases pump_pending_or_shown hrun with hpending | hshown
    · exact absurd hpending (hcons _)
    · exact hshown

/-- **The firmware refines the installation.** Once the watering task is constructed, every reachable
    state shows the state of the installation that the orders so far lead to, which is at rest while the
    task waits; and every step goes on to a state that shows the installation after the step's order, or
    unchanged if it gives none. Where no hand has touched the pump since the cycle last switched it, the
    pump runs exactly in the cycle's watering stage; where it runs outside that stage, the latest order to
    it was the switch's, to go on. -/
theorem refines_installation (hrun : firmware.Run σ₀ h s)
    (hcons : System.Constructed s .waterPlants) :
    ∃ i, Refines h s i ∧
      (∀ e s', firmware.Step s e s' → ∃ i', Shows s'.store i' ∧
        match orderOf e with
        | some order => Installation.next timing i order = some i'
        | none => i' = i) ∧
      (Installation.CycleRules (orders h) → i.pump = i.phase.pumping) ∧
      (i.pump = true → i.phase.pumping = false →
        (orders h).find? (fun order => order.pump?.isSome) = some (.switch true)) := by
  obtain ⟨i, hi⟩ := exists_refines hrun hcons
  refine ⟨i, hi, fun e s' hstep => ?_, Installation.pump_eq_pumping hi.track,
    Installation.switched_of_pump hi.track⟩
  obtain ⟨i', hi'⟩ := exists_refines (hrun.snoc hstep)
    (System.Steps.constructed (System.Steps.refl.snoc hstep) hcons)
  refine ⟨i', hi'.shows, ?_⟩
  have htrack := hi'.track
  cases horder : orderOf e with
  | none =>
      rw [orders, List.filterMap_cons_none horder] at htrack
      exact Option.some.inj (htrack.symm.trans hi.track)
  | some order =>
      rw [orders, List.filterMap_cons_some horder] at htrack
      obtain ⟨j, hj, hnext⟩ := Option.bind_eq_some_iff.1 htrack
      rwa [Option.some.inj (hj.symm.trans hi.track)] at hnext

/-- A watering of five seconds, as the pump is switched on. -/
theorem refines_installation_five :
    ∃ h s i, firmware.Run (fun _ => 0) h s ∧ Refines h s i ∧ i.pump = true := by
  obtain ⟨h, levels, hrun, -, -⟩ := exists_booted fun _ => 0
  have haccepted : requestedSeconds (request "5") = some 5 := by decide
  obtain ⟨opening, todo, hm⟩ := actions_starting haccepted
  have hrun' := hrun.trans (steps_begin levels hm)
  have hon : firmware.performed (opening ++ [.gpioSetLevel pinWaterPump kPumpOnLevel]) levels
      pinWaterPump = pumpLevel true := by
    rw [System.performed_append]
    rfl
  obtain ⟨i, hi, -⟩ := refines_installation hrun' nofun
  refine ⟨_, _, i, hrun', hi, ?_⟩
  have hpump := hi.shows.2.symm.trans hon
  revert hpump
  cases i.pump <;> decide

end CroniotWatering.Firmware
