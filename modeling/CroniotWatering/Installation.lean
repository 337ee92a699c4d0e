import CroniotWatering.WateringCycle

set_option autoImplicit false

/-! # A pump with two masters

The installation as its users see it: the watering cycle, and a pump that obeys the cycle and a hand
switch alike. Neither knows of the other, and the latest order wins. So the pump is the cycle's only as
long as nobody has used the switch since the cycle last switched it. -/

namespace WateringCycle

/-- An order to the installation: an operation of the cycle, or the hand switch. -/
inductive Order where
  | cycle (op : Op)
  | switch (on : Bool)
deriving DecidableEq

namespace Order

def op? : Order → Option Op
  | .cycle op => some op
  | .switch _ => none

def pump? : Order → Option Bool
  | .cycle op => op.pump?
  | .switch on => some on

/-- It is the cycle's. -/
def ofCycle : Order → Bool
  | .cycle _ => true
  | .switch _ => false

end Order

/-- The state of the installation. -/
structure Installation where
  phase : Phase
  pump : Bool
deriving DecidableEq

namespace Installation

/-- Never used, and off. -/
def initial : Installation := ⟨.rest false, false⟩

/-- An operation of the cycle has to be in place; the switch can be used at any time. -/
def next (T : Timing) : Installation → Order → Option Installation
  | ⟨p, pump⟩, .cycle op => (WateringCycle.next T p op).map fun p' => ⟨p', op.pump?.getD pump⟩
  | ⟨p, _⟩, .switch on => some ⟨p, on⟩

variable {T : Timing} {i : Installation} {orders : List Order}

/-- **The installation is the cycle, and the latest order to the pump.** -/
theorem track_eq (i₀ : Installation) (orders : List Order) :
    Monitor.track (next T) i₀ orders
      = (Monitor.track (WateringCycle.next T) i₀.phase (orders.filterMap Order.op?)).map fun p =>
          ⟨p, (orders.findSome? Order.pump?).getD i₀.pump⟩ := by
  induction orders with
  | nil => rfl
  | cons order orders ih =>
      show (Monitor.track (next T) i₀ orders).bind (fun i => next T i order) = _
      rw [ih]
      cases order with
      | cycle op =>
          have hops : (.cycle op :: orders).filterMap Order.op? = op :: orders.filterMap Order.op? := rfl
          rw [hops]
          simp only [Monitor.track, List.findSome?_cons, Order.pump?]
          cases Monitor.track (WateringCycle.next T) i₀.phase (orders.filterMap Order.op?) with
          | none => rfl
          | some p => cases hop : op.pump? <;> simp [next, hop]
      | switch on =>
          have hops : (.switch on :: orders).filterMap Order.op? = orders.filterMap Order.op? := rfl
          rw [hops]
          cases Monitor.track (WateringCycle.next T) i₀.phase (orders.filterMap Order.op?) <;>
            simp [next, List.findSome?_cons, Order.pump?]

/-- The latest order to the pump, if there is one, is the cycle's. -/
def CycleRules (orders : List Order) : Prop :=
  ∀ order, orders.find? (fun order => order.pump?.isSome) = some order → order.ofCycle = true

theorem findSome?_of_find? {order : Order}
    (h : orders.find? (fun order => order.pump?.isSome) = some order) :
    orders.findSome? Order.pump? = order.pump? := by
  induction orders with
  | nil => cases h
  | cons o orders ih =>
      cases hpump : o.pump? with
      | none =>
          rw [List.find?_cons_of_neg (by simp [hpump])] at h
          rw [List.findSome?_cons, hpump, ← ih h]
      | some on =>
          rw [List.find?_cons_of_pos (by simp [hpump]), Option.some.injEq] at h
          rw [List.findSome?_cons, hpump, ← h, hpump]

/-- **Where the cycle rules**, the pump runs in its watering stage and nowhere else. -/
theorem pump_eq_pumping (h : Monitor.track (next T) initial orders = some i)
    (hrules : CycleRules orders) : i.pump = i.phase.pumping := by
  revert hrules
  refine Monitor.track_induct (J := fun i orders => CycleRules orders → i.pump = i.phase.pumping)
    (fun _ => rfl) ?_ h
  intro i i' order orders ih hnext hrules
  cases order with
  | switch on => exact absurd (hrules (.switch on) rfl) (by simp [Order.ofCycle])
  | cycle op =>
      obtain ⟨p', hmove, rfl⟩ := Option.map_eq_some_iff.1 hnext
      -- an operation that leaves the pump alone is not the latest order to it
      have hbefore : op.pump? = none → i.pump = i.phase.pumping := by
        intro hop
        refine ih fun order horder => hrules order ?_
        rwa [List.find?_cons_of_neg (by simp [Order.pump?, hop])]
      rcases i with ⟨p, pump⟩
      cases moves_of_next hmove with
      | pumpOn | pumpOff => rfl
      | sleep st k hk | wake st k => exact (hbefore rfl).trans (by cases st <;> rfl)
      | raise1 | drop2 | finish | raise2 | drop1 => exact hbefore rfl

/-- A pump that runs outside the watering stage was last switched by hand, and on. -/
theorem switched_of_pump (h : Monitor.track (next T) initial orders = some i) (hpump : i.pump = true)
    (hphase : i.phase.pumping = false) :
    orders.find? (fun order => order.pump?.isSome) = some (.switch true) := by
  have hnot : ¬ CycleRules orders := by
    intro hrules
    rw [pump_eq_pumping h hrules, hphase] at hpump
    cases hpump
  simp only [CycleRules, not_forall] at hnot
  obtain ⟨order, hlatest, hhand⟩ := hnot
  cases order with
  | cycle op => exact absurd rfl hhand
  | switch on =>
      rw [track_eq, Option.map_eq_some_iff] at h
      obtain ⟨p, -, rfl⟩ := h
      rw [findSome?_of_find? hlatest] at hpump
      rw [hlatest]
      exact congrArg (fun on => some (Order.switch on)) hpump

end Installation

end WateringCycle
