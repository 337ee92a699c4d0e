import CroniotWatering.Main.ValveLines

set_option autoImplicit false

/-! # The pump under two tasks

The watering task and the pump switch write the pump pin with no coordination between them. One
invariant over all interleavings says why the pump can be on: the watering task is in its pump
window, or the switch was last told `on`. Where the switch never is, the window is the only reason,
and the watering cycle's clock says what lies around it. -/

namespace CroniotWatering.Firmware

open TaskSystem TaskWaterPlants WaterSequenceController WateringCycle History

/-! ## Reading a history -/

/-- The level an action writes to the pump pin. -/
def pumpWrite : Action → Option Int
  | .gpioSetLevel pin level => if pin = pinWaterPump then some level else none
  | _ => none

/-- The write of `startWatering`. -/
def startWrite : Action := .gpioSetLevel pinWaterPump kPumpOnLevel

/-- The write of `stopWatering`. -/
def stopWrite : Action := .gpioSetLevel pinWaterPump kPumpOffLevel

/-- The watering task is between its `startWatering` write and its `stopWatering` write: of the code for
    the message it handles, the first is done and the second is still to come. -/
def InPumpWindow (h : History) (s : State) : Prop :=
  ∃ m todo, s.thread .waterPlants = .running m todo ∧ startWrite ∈ progress .waterPlants h ∧
    stopWrite ∈ todo

/-- The command the pump switch executes in an event. A message with a command counts from the first
    action of its code on, and at the end of its code whether that has done anything or not. -/
def commandEvent : Event → Option String
  | .act .waterPumpSwitch m _ | .finish .waterPumpSwitch m => TaskWaterPumpSwitch.commandOf m
  | _ => none

/-- The last recognised command the pump switch has executed. -/
def lastSwitchCommand (h : History) : Option String := h.findSome? commandEvent

/-- How many one-second delays of the watering task have ended since its latest action `a`. -/
def secondsSince (a : Action) (h : History) : Option ℕ :=
  elapsedSince (.delayEnd 1000) a (acts .waterPlants h)

/-! ## The commands of the switch -/

/-- The switch has begun its messages `ms`: all it took, or all but one of which nothing is done yet. -/
def Begun (h : History) (s : State) (ms : List SimpleTaskData) : Prop :=
  received .waterPumpSwitch h = ms ∨
    ∃ m, s.thread .waterPumpSwitch
      = .running m (TaskWaterPumpSwitch.executeTask m).actions ∧
      received .waterPumpSwitch h = m :: ms

/-- From an event of the switch for its latest message on, all the messages it took count. -/
theorem lastSwitchCommand_cons {h : History} {s : State} {ms : List SimpleTaskData} {m : SimpleTaskData}
    {e : Event} (he : commandEvent e = TaskWaterPumpSwitch.commandOf m)
    (hhead : (received .waterPumpSwitch h).head? = some m) (hbegun : Begun h s ms)
    (hlast : lastSwitchCommand h = ms.findSome? TaskWaterPumpSwitch.commandOf) :
    lastSwitchCommand (e :: h)
      = (received .waterPumpSwitch h).findSome? TaskWaterPumpSwitch.commandOf := by
  obtain ⟨older, hreceived⟩ := List.head?_eq_some_iff.1 hhead
  rw [lastSwitchCommand, List.findSome?_cons, he, hreceived, List.findSome?_cons]
  cases hcommand : TaskWaterPumpSwitch.commandOf m with
  | some command => rfl
  | none =>
      -- the message has begun before, or not; it makes no difference
      show lastSwitchCommand h = _
      rcases hbegun with hall | ⟨m', -, hall⟩
      · rw [hlast, ← hall, hreceived, List.findSome?_cons, hcommand]
      · obtain ⟨-, rfl⟩ := List.cons.inj (hall.symm.trans hreceived)
        exact hlast

/-- **Every message counts** that the switch has begun, in the order they came. -/
theorem exists_begun {σ₀ : Levels} {h : History} {s : State} (hrun : firmware.Run σ₀ h s) :
    ∃ ms, Begun h s ms ∧ lastSwitchCommand h = ms.findSome? TaskWaterPumpSwitch.commandOf := by
  induction hrun with
  | refl => exact ⟨[], Or.inl rfl, rfl⟩
  | @snoc h s₁ s₂ e hrun hstep ih =>
      obtain ⟨ms, hbegun, hlast⟩ := ih
      have hhead : ∀ m todo, s₁.thread .waterPumpSwitch = .running m todo →
          (received .waterPumpSwitch h).head? = some m :=
        fun m todo hr => (System.Run.progress_append hrun hr).2
      have hth := hstep.threadStep .waterPumpSwitch
      generalize hx : s₁.thread .waterPumpSwitch = x at hth
      generalize hy : s₂.thread .waterPumpSwitch = y at hth
      cases hth with
      | other hne =>
          have hnone : commandEvent e = none := by
            cases e with
            | act t m a | finish t m =>
                cases t with
                | waterPumpSwitch => exact absurd rfl hne
                | _ => rfl
            | _ => rfl
          refine ⟨ms, ?_, ?_⟩
          · unfold Begun
            rw [(acts_of_owner_ne hne h).2.1, hy, ← hx]
            exact hbegun
          · rw [lastSwitchCommand, List.findSome?_cons, hnone]
            exact hlast
      | start =>
          rcases hbegun with hall | ⟨m, hm, -⟩
          · exact ⟨ms, Or.inl hall, hlast⟩
          · rw [hx] at hm
            cases hm
      | receive m =>
          rcases hbegun with hall | ⟨m', hm, -⟩
          · refine ⟨ms, Or.inr ⟨m, hy, ?_⟩, hlast⟩
            simp only [received, if_true, hall]
          · rw [hx] at hm
            cases hm
      | act m a todo =>
          exact ⟨_, Or.inl rfl, lastSwitchCommand_cons rfl (hhead m _ hx) hbegun hlast⟩
      | finish m =>
          exact ⟨_, Or.inl rfl, lastSwitchCommand_cons rfl (hhead m _ hx) hbegun hlast⟩

/-- A switch that waits has executed the commands of all its messages. -/
theorem lastSwitchCommand_of_waiting {σ₀ : Levels} {h : History} {s : State}
    (hrun : firmware.Run σ₀ h s) (hwaiting : s.thread .waterPumpSwitch = .waiting) :
    lastSwitchCommand h
      = (received .waterPumpSwitch h).findSome? TaskWaterPumpSwitch.commandOf := by
  obtain ⟨ms, rfl | ⟨m, hm, -⟩, hlast⟩ := exists_begun hrun
  · exact hlast
  · rw [hwaiting] at hm
    cases hm

/-- A command becomes the last one with the write of the pin that carries it out. -/
theorem lastSwitchCommand_of_no_write {σ₀ : Levels} {h : History} {s s' : State} {e : Event}
    (hrun : firmware.Run σ₀ h s) (hstep : firmware.Step s e s')
    (hw : e.effect.bind pumpWrite = none) : lastSwitchCommand (e :: h) = lastSwitchCommand h := by
  obtain ⟨ms, hbegun, hlast⟩ := exists_begun hrun
  -- a message with a command starts with a write, so it has begun before
  have hswitch : ∀ m todo, s.thread .waterPumpSwitch = .running m todo →
      commandEvent e = TaskWaterPumpSwitch.commandOf m →
      (∀ level todo', todo ≠ .gpioSetLevel pinWaterPump level :: todo') →
      lastSwitchCommand (e :: h) = lastSwitchCommand h := by
    intro m todo hr he hfirst
    have hhead := (System.Run.progress_append hrun hr).2
    rw [lastSwitchCommand_cons he hhead hbegun hlast, hlast]
    rcases hbegun with hall | ⟨m', hm, hall⟩
    · rw [hall]
    · obtain ⟨rfl, rfl⟩ := Thread.running.inj (hm.symm.trans hr)
      rw [hall, List.findSome?_cons]
      cases hcommand : TaskWaterPumpSwitch.commandOf m' with
      | none => rfl
      | some command =>
          obtain ⟨level, todo', hwrite⟩ := TaskWaterPumpSwitch.actions_of_commandOf hcommand
          exact absurd hwrite (hfirst level todo')
  cases hstep with
  | construct | start | receive => rfl
  | @act t m a todo hh hr =>
      cases t with
      | waterPumpSwitch =>
          refine hswitch m _ hr rfl fun level todo' heq => ?_
          obtain ⟨rfl, -⟩ := List.cons.inj heq
          cases hw
      | _ => rfl
  | @finish t m hh hr =>
      cases t with
      | waterPumpSwitch => exact hswitch m _ hr rfl fun level todo' heq => nomatch heq
      | _ => rfl

/-! ## Why the pump is not off -/

/-- The watering task's latest write of the pump pin switched the pump on. -/
def LastPumpedOn (h : History) : Prop :=
  (acts .waterPlants h).findSome? pumpWrite = some kPumpOnLevel

/-- The constructor's own write of the pump pin. -/
def bootPumpOff : BootOp TaskId Action :=
  .construct .waterPlants (.gpioSetLevel pinWaterPump kPumpOffLevel)

/-- The pump is off, or somebody is responsible: the watering task, the switch, or a constructor that
    has not run yet. -/
def PumpAccounted (h : History) (s : State) : Prop :=
  s.store pinWaterPump = kPumpOffLevel ∨ LastPumpedOn h ∨ lastSwitchCommand h = some "on" ∨
    bootPumpOff ∈ s.boot

theorem apply_pump (a : Action) (levels : Levels) :
    a.apply levels pinWaterPump = (pumpWrite a).getD (levels pinWaterPump) :=
  apply_pinWrite pinWaterPump a levels

/-- Constructors leave the pump off if they write it. -/
theorem construct_pump {t : TaskId} {a : Action} (ha : a ∈ (firmware.task t).construct) :
    pumpWrite a = none ∨ pumpWrite a = some kPumpOffLevel := by
  revert a
  cases t <;> decide

/-- The watering task's writes of the pump pin. -/
theorem pumpWrite_eq {a : Action} (ha : opOf a = none → ignored a = true) :
    pumpWrite a = ((opOf a).bind Op.pump?).map fun on => if on then kPumpOnLevel else kPumpOffLevel := by
  cases hop : opOf a with
  | none =>
      have hignored := ha hop
      cases a with
      | gpioSetLevel => cases hignored
      | _ => rfl
  | some op =>
      rw [(opOf_classifies a op).1 hop]
      cases op <;> rfl

theorem pumpWrite_eq_some {a : Action} {level : Int} :
    pumpWrite a = some level ↔ a = .gpioSetLevel pinWaterPump level := pinWrite_eq_some

/-- Who writes the pump pin while handling a message: the watering task, to one of the two levels, or
    the switch, as it was told. -/
theorem handle_pump {t : TaskId} {m : SimpleTaskData} {a : Action} {level : Int}
    (ha : a ∈ (firmware.task t).handle m) (hw : pumpWrite a = some level) :
    (t = .waterPlants ∧ (level = kPumpOnLevel ∨ level = kPumpOffLevel)) ∨
    (t = .waterPumpSwitch ∧
      ((level = kPumpOnLevel ∧ TaskWaterPumpSwitch.commandOf m = some "on") ∨
        (level = kPumpOffLevel ∧ TaskWaterPumpSwitch.commandOf m = some "off"))) := by
  have hwrite := pumpWrite_eq_some.1 hw
  subst hwrite
  have hprescribed : firmware.Prescribes t (.gpioSetLevel pinWaterPump level) := Or.inr ⟨m, ha⟩
  rcases prescribed_write hprescribed with rfl | ⟨rfl, -⟩ | hled
  · refine Or.inl ⟨rfl, ?_⟩
    rw [pumpWrite_eq (covered_actions m _ ha)] at hw
    obtain ⟨on, -, hlevel⟩ := Option.map_eq_some_iff.1 hw
    cases on with
    | true => exact Or.inl hlevel.symm
    | false => exact Or.inr hlevel.symm
  · exact Or.inr ⟨rfl, (TaskWaterPumpSwitch.commandOf_of_write ha).2⟩
  · cases hled

/-! ## The invariant -/

/-- A step that touches nothing of it keeps the account. -/
theorem PumpAccounted.keep {h h' : History} {s s' : State} (hacc : PumpAccounted h s)
    (hstore : s'.store pinWaterPump = s.store pinWaterPump)
    (hwindow : LastPumpedOn h → LastPumpedOn h')
    (hlast : lastSwitchCommand h' = lastSwitchCommand h)
    (hboot : bootPumpOff ∈ s.boot → bootPumpOff ∈ s'.boot) : PumpAccounted h' s' := by
  rcases hacc with hoff | hin | hon | hpending
  · exact Or.inl (hstore.trans hoff)
  · exact Or.inr (Or.inl (hwindow hin))
  · exact Or.inr (Or.inr (Or.inl (hlast.trans hon)))
  · exact Or.inr (Or.inr (Or.inr (hboot hpending)))

/-- An action that leaves the pump pin alone is no write of the task's. -/
theorem lastPumpedOn_act {t : TaskId} {m : SimpleTaskData} {a : Action} (hw : pumpWrite a = none)
    {h : History} (hon : LastPumpedOn h) : LastPumpedOn (.act t m a :: h) := by
  unfold LastPumpedOn at hon ⊢
  simp only [acts]
  split
  · rwa [List.findSome?_cons, hw]
  · exact hon

/-- A write of the pump pin switches it off, or the history accounts for it from then on. -/
theorem act_some {t : TaskId} {m : SimpleTaskData} {a : Action} {level : Int}
    (ha : a ∈ (firmware.task t).handle m) (hw : pumpWrite a = some level) (h : History) :
    level = kPumpOffLevel ∨ LastPumpedOn (.act t m a :: h) ∨
      lastSwitchCommand (.act t m a :: h) = some "on" := by
  rcases handle_pump ha hw with ⟨rfl, rfl | hoff⟩ | ⟨rfl, ⟨rfl, hcommand⟩ | ⟨hoff, -⟩⟩
  · refine Or.inr (Or.inl ?_)
    simp only [LastPumpedOn, acts, if_true, List.findSome?_cons, hw]
  · exact Or.inl hoff
  · refine Or.inr (Or.inr ?_)
    simp only [lastSwitchCommand, List.findSome?_cons, commandEvent, hcommand]
  · exact Or.inl hoff

/-- **The pump is accounted for** in every reachable state. -/
theorem pump_accounted {σ₀ : Levels} {h : History} {s : State} (hrun : firmware.Run σ₀ h s) :
    PumpAccounted h s := by
  induction hrun with
  | refl =>
      have hwrite : Action.gpioSetLevel pinWaterPump kPumpOffLevel
          ∈ (firmware.task .waterPlants).construct := by decide
      have hboot : bootPumpOff ∈ firmware.bootProgram :=
        List.mem_flatMap.2 ⟨.waterPlants, TaskId.mem_registerTasks _,
          List.mem_append_left _ (List.mem_map_of_mem hwrite)⟩
      exact Or.inr (Or.inr (Or.inr hboot))
  | @snoc h s₁ s₂ e hrun hstep ih =>
      have hprescribes := @System.Run.prescribes _ _ _ _ _ _ _ _ _ s₂ hrun
      cases hstep with
      | @construct t a rest hh hb =>
          have hpump := apply_pump a s₁.store
          rcases construct_pump (hprescribes.1 (.construct hh hb)) with hw | hw
          · rw [hw] at hpump
            refine ih.keep hpump id rfl fun hpending => ?_
            -- the pending write is not the one that was just made
            have hne : bootPumpOff ≠ .construct t a := by
              rintro heq
              cases heq
              cases hw
            rw [hb] at hpending
            exact List.mem_of_ne_of_mem hne hpending
          · rw [hw] at hpump
            exact Or.inl hpump
      | @start t rest hh hb hab =>
          refine ih.keep rfl id rfl fun hpending => ?_
          rw [hb] at hpending
          exact List.mem_of_ne_of_mem (by simp [bootPumpOff]) hpending
      | receive => exact ih.keep rfl id rfl id
      | finish hh hr =>
          exact ih.keep rfl id (lastSwitchCommand_of_no_write hrun (.finish hh hr) rfl) id
      | @act t m a todo hh hr =>
          have hpump := apply_pump a s₁.store
          cases hw : pumpWrite a with
          | none =>
              rw [hw] at hpump
              exact ih.keep hpump (lastPumpedOn_act hw)
                (lastSwitchCommand_of_no_write hrun (.act hh hr) hw) id
          | some level =>
              rw [hw] at hpump
              rcases act_some (hprescribes.2 m (.act hh hr)) hw h with rfl | hin | hon
              · exact Or.inl hpump
              · exact Or.inr (Or.inl hin)
              · exact Or.inr (Or.inr (Or.inl hon))

/-! ## The window and the cycle -/

/-- The level the pump pin has when the pump is to run or not. -/
def pumpLevel (on : Bool) : Int := if on then kPumpOnLevel else kPumpOffLevel

theorem findSome?_pumpWrite {as : List Action} (has : Covered as) :
    as.findSome? pumpWrite = ((as.filterMap opOf).findSome? Op.pump?).map pumpLevel := by
  rw [findSome?_filterMap]
  induction as with
  | nil => rfl
  | cons a as ih =>
      obtain ⟨ha, has⟩ := List.forall_mem_cons.1 has
      rw [List.findSome?_cons, List.findSome?_cons, pumpWrite_eq ha, ih has]
      cases (opOf a).bind Op.pump? with
      | none => rfl
      | some on => rfl

/-- The task has last switched the pump on exactly in the watering stage of the cycle. -/
theorem InPhase.lastPumpedOn_iff {σ₀ : Levels} {h : History} {s : State} {p : Phase}
    (hrun : firmware.Run σ₀ h s) (hp : InPhase h s p) : LastPumpedOn h ↔ p.pumping = true := by
  rw [← track_pumping hp.track, LastPumpedOn, findSome?_pumpWrite (covered_acts hrun)]
  show ((operations h).findSome? Op.pump?).map pumpLevel = some kPumpOnLevel ↔ _
  cases (operations h).findSome? Op.pump? with
  | none => exact iff_of_false nofun nofun
  | some on => cases on <;> decide

/-- A task that is not handling a message is at rest. -/
theorem InPhase.not_pumping {h : History} {s : State} {p : Phase} (hp : InPhase h s p)
    (hdone : (s.thread .waterPlants).remaining = []) : p.pumping ≠ true := by
  have hrest := hp.rest
  rw [hdone] at hrest
  rw [Option.some.inj hrest]
  exact nofun

/-- What the task has done of a message and what it has yet to do make up a cycle, or nothing. -/
theorem operations_of_split {m : SimpleTaskData} {done todo : List Action}
    (h : done.reverse ++ todo = (TaskWaterPlants.executeTask m).actions) :
    (done.filterMap opOf).reverse ++ todo.filterMap opOf = [] ∨
    ∃ n, (done.filterMap opOf).reverse ++ todo.filterMap opOf = cycle timing n := by
  rw [← List.filterMap_reverse, ← List.filterMap_append, h, filterMap_actions]
  cases requestedSeconds m with
  | none => exact Or.inl rfl
  | some requested => exact Or.inr ⟨_, rfl⟩

/-- **The pump window is the watering stage** of the cycle. -/
theorem InPhase.inPumpWindow_iff {σ₀ : Levels} {h : History} {s : State} {p : Phase}
    (hrun : firmware.Run σ₀ h s) (hp : InPhase h s p) : InPumpWindow h s ↔ p.pumping = true := by
  obtain ⟨used, hcurrent⟩ := hp.current
  have hrest := hp.not_pumping
  unfold InPumpWindow
  cases hthread : s.thread .waterPlants with
  | absent | waiting =>
      rw [hthread] at hrest
      exact iff_of_false nofun (hrest rfl)
  | running m todo =>
      have hcode := (System.Run.progress_append hrun hthread).1
      have hposition : (∃ m' todo', Thread.running m todo = .running m' todo' ∧
            startWrite ∈ progress .waterPlants h ∧ stopWrite ∈ todo')
          ↔ .pumpOn ∈ (progress .waterPlants h).filterMap opOf ∧ .pumpOff ∈ todo.filterMap opOf := by
        rw [mem_filterMap_opOf, mem_filterMap_opOf]
        constructor
        · rintro ⟨m', todo', hsame, hwindow⟩
          obtain ⟨rfl, rfl⟩ := Thread.running.inj hsame
          exact hwindow
        · exact fun hwindow => ⟨m, todo, rfl, hwindow⟩
      rw [hposition, ← track_pumping hcurrent]
      rcases operations_of_split hcode with hnil | ⟨n, hcycle⟩
      · obtain ⟨hdone, htodo⟩ := List.append_eq_nil_iff.1 hnil
        simp [List.reverse_eq_nil_iff.1 hdone]
      · exact (pumping_iff_between hcycle).symm

/-! ## Why the pump is on -/

/-- Once the watering task is constructed, its constructor is no excuse. -/
theorem pump_off_or {σ₀ : Levels} {h : History} {s : State} (hrun : firmware.Run σ₀ h s)
    (hcons : System.Constructed s .waterPlants) :
    s.store pinWaterPump = kPumpOffLevel ∨ InPumpWindow h s ∨ lastSwitchCommand h = some "on" := by
  obtain ⟨p, hp⟩ := exists_phase hrun hcons
  rcases pump_accounted hrun with hoff | hon | hlast | hpending
  · exact Or.inl hoff
  · have hpumping := (hp.lastPumpedOn_iff hrun).1 hon
    exact Or.inr (Or.inl ((hp.inPumpWindow_iff hrun).2 hpumping))
  · exact Or.inr (Or.inr hlast)
  · exact absurd hpending (hcons _)

/-- **No unattended pump.** Once the watering task is constructed, whether or not the switch is: if
    the pump is on, the watering task is between its `startWatering` write and its `stopWatering`
    write, or the last recognised command the switch has executed was `on`. -/
theorem no_unattended_pump {σ₀ : Levels} {h : History} {s : State} (hrun : firmware.Run σ₀ h s)
    (hcons : System.Constructed s .waterPlants)
    (hon : s.store pinWaterPump = kPumpOnLevel) :
    InPumpWindow h s ∨ lastSwitchCommand h = some "on" := by
  rcases pump_off_or hrun hcons with hoff | haccount
  · rw [hon] at hoff
    cases hoff
  · exact haccount

/-- The switch, told `on` after boot. -/
theorem no_unattended_pump_on :
    ∃ h s, firmware.Run (fun _ => 0) h s ∧ s.store pinWaterPump = kPumpOnLevel ∧
      (InPumpWindow h s ∨ lastSwitchCommand h = some "on") := by
  obtain ⟨h, levels, hrun, -, -⟩ := exists_booted fun _ => 0
  have hbegin := @System.Steps.begin _ _ _ _ _ firmware [] (fun _ => .waiting) levels
    .waterPumpSwitch ⟨7, .single taskRelaySwitchParameterSwitchState "on"⟩
    [.gpioSetLevel pinWaterPump kPumpOnLevel] _ rfl rfl (by decide)
  have hrun' := hrun.trans hbegin
  have hon : firmware.performed [.gpioSetLevel pinWaterPump kPumpOnLevel] levels pinWaterPump
      = kPumpOnLevel := rfl
  exact ⟨_, _, hrun', hon, no_unattended_pump hrun' nofun hon⟩

/-! ## No dry running -/

/-- No message to the switch says `on`. -/
def NeverSwitchedOn (h : History) : Prop :=
  ∀ m ∈ received .waterPumpSwitch h,
    m.parametersValues.find taskRelaySwitchParameterSwitchState ≠ some "on"

theorem NeverSwitchedOn.lastSwitchCommand_ne {σ₀ : Levels} {h : History} {s : State}
    (hrun : firmware.Run σ₀ h s) (hoff : NeverSwitchedOn h) : lastSwitchCommand h ≠ some "on" := by
  intro hon
  obtain ⟨ms, hbegun, hlast⟩ := exists_begun hrun
  rw [hlast] at hon
  obtain ⟨m, hm, hcommand⟩ := List.exists_of_findSome?_eq_some hon
  have hreceived : m ∈ received .waterPumpSwitch h := by
    rcases hbegun with hall | ⟨m', -, hall⟩
    · rwa [hall]
    · rw [hall]
      exact List.mem_cons_of_mem m' hm
  exact hoff m hreceived (Option.filter_eq_some_iff.1 hcommand).1

/-- The write that completes `openWaterValve`. -/
def openedWrite : Action := .gpioSetLevel pinElectricValve2 0

theorem secondsSince_eq (op : Op) (h : History) :
    secondsSince (actionOf op) h = elapsedSince .wake op (operations h) :=
  elapsedSince_filterMap opOf_classifies .wake op (acts TaskId.waterPlants h)

/-- In the pump window the valve is open, and the clock of the cycle runs. -/
theorem of_inPumpWindow {σ₀ : Levels} {h : History} {s : State} (hrun : firmware.Run σ₀ h s)
    (hcons : System.Constructed s .waterPlants) (hin : InPumpWindow h s) :
    (s.store pinElectricValve1 = 1 ∧ s.store pinElectricValve2 = 0) ∧
    (∃ d, secondsSince openedWrite h = some d ∧ 8 ≤ d) ∧
    ∃ d, secondsSince startWrite h = some d ∧ d ≤ 600 := by
  obtain ⟨p, hp⟩ := exists_phase hrun hcons
  have hclock := track_clock hp.track
  have hlines := hp.lines
  have hpumping := (hp.inPumpWindow_iff hrun).1 hin
  cases p with
  | stage st k asleep =>
      cases st with
      | watering =>
          obtain ⟨hstart, hk, d, hopened, hd⟩ := hclock
          refine ⟨valveLines_eq_iff.1 hlines, ⟨d, ?_, hd⟩, k, ?_, ?_⟩
          · exact (secondsSince_eq .drop2 h).trans hopened
          · exact (secondsSince_eq .pumpOn h).trans hstart
          · exact Nat.le_trans (Nat.le_add_right _ _) hk
      | opening | settling | closing => cases hpumping
  | rest | halfOpen | halfClosed => cases hpumping

theorem NeverSwitchedOn.of_suffix {h h' : History} (hoff : NeverSwitchedOn h) (hs : h' <:+ h) :
    NeverSwitchedOn h' := by
  obtain ⟨l, rfl⟩ := hs
  intro m hm
  refine hoff m ?_
  rw [received_append]
  exact List.mem_append_right _ hm

/-- A pump that nobody switched on is off outside the pump window. -/
theorem NeverSwitchedOn.off_or_window {σ₀ : Levels} {h : History} {s : State}
    (hoff : NeverSwitchedOn h) (hrun : firmware.Run σ₀ h s)
    (hcons : System.Constructed s .waterPlants) :
    s.store pinWaterPump = kPumpOffLevel ∨ InPumpWindow h s := by
  rcases pump_off_or hrun hcons with hoff' | hin | hon
  · exact Or.inl hoff'
  · exact Or.inr hin
  · exact absurd hon (hoff.lastSwitchCommand_ne hrun)

/-- The pump stays off as long as the watering task leaves it so. -/
theorem NeverSwitchedOn.pump_off {σ₀ : Levels} {h : History} {s : State}
    (hoff : NeverSwitchedOn h) (hrun : firmware.Run σ₀ h s)
    (hstop : (acts .waterPlants h).findSome? pumpWrite = some kPumpOffLevel) :
    s.store pinWaterPump = kPumpOffLevel := by
  have hacts : acts .waterPlants h ≠ [] := by
    intro hnil
    rw [hnil] at hstop
    cases hstop
  have hcons := constructed_of_acts hrun hacts
  obtain ⟨p, hp⟩ := exists_phase hrun hcons
  rcases hoff.off_or_window hrun hcons with hoff' | hin
  · exact hoff'
  · rw [hp.inPumpWindow_iff hrun, ← hp.lastPumpedOn_iff hrun, LastPumpedOn, hstop] at hin
    cases hin

/-- While the watering task waits, a pump that nobody switched on is off. -/
theorem NeverSwitchedOn.pump_off_of_waiting {σ₀ : Levels} {h : History} {s : State}
    (hoff : NeverSwitchedOn h) (hrun : firmware.Run σ₀ h s)
    (hwaiting : s.thread .waterPlants = .waiting) : s.store pinWaterPump = kPumpOffLevel := by
  have hcons := constructed_of_waiting hrun hwaiting
  obtain ⟨p, hp⟩ := exists_phase hrun hcons
  rcases hoff.off_or_window hrun hcons with hoff' | hin
  · exact hoff'
  · rw [hp.inPumpWindow_iff hrun, hp.of_waiting hwaiting] at hin
    cases hin

/-- The task's actions since its latest write of the pump pin, as operations. -/
theorem sincePump_operations {as : List Action} (has : Covered as) :
    sincePump (as.filterMap opOf)
      = (as.takeWhile fun a => (pumpWrite a).isNone).filterMap opOf := by
  induction as with
  | nil => rfl
  | cons a as ih =>
      obtain ⟨ha, has⟩ := List.forall_mem_cons.1 has
      have hw := pumpWrite_eq ha
      cases hop : opOf a with
      | none =>
          rw [hop] at hw
          rw [List.filterMap_cons_none hop, List.takeWhile_cons_of_pos (by simp [hw]),
            List.filterMap_cons_none hop]
          exact ih has
      | some op =>
          rw [hop, Option.bind_some] at hw
          rw [List.filterMap_cons_some hop]
          cases hpump : op.pump? with
          | none =>
              rw [hpump] at hw
              rw [sincePump, List.takeWhile_cons_of_pos (by simp [hpump]),
                List.takeWhile_cons_of_pos (by simp [hw]), List.filterMap_cons_some hop]
              exact congrArg _ (ih has)
          | some on =>
              rw [hpump] at hw
              rw [sincePump, List.takeWhile_cons_of_neg (by simp [hpump]),
                List.takeWhile_cons_of_neg (by simp [hw])]
              rfl

/-- The valve begins to close only when the pump has been off for a whole delay. -/
theorem settled_of_close {σ₀ : Levels} {h : History} {s s' : State} {m : SimpleTaskData}
    (hrun : firmware.Run σ₀ h s) (hoff : NeverSwitchedOn h)
    (hstep : firmware.Step s (.act .waterPlants m closeWrite) s') :
    ∃ recent older, h = recent ++ older ∧
      [Action.delayEnd 1000, .delayBegin 1000].Sublist (acts .waterPlants recent) ∧
      ∀ h', older <:+ h' → h' <:+ h →
        firmware.storeAfter σ₀ h' pinWaterPump = kPumpOffLevel := by
  have hrun' : firmware.Run σ₀ (.act .waterPlants m closeWrite :: h) s' := hrun.snoc hstep
  obtain ⟨p', hp'⟩ := exists_phase hrun' (constructed_of_acts hrun' (by simp [acts]))
  have hops : operations (.act .waterPlants m closeWrite :: h) = .raise2 :: operations h := rfl
  have htrack := hp'.track
  rw [hops] at htrack
  obtain ⟨p, htrack, hnext⟩ := Option.bind_eq_some_iff.1 htrack
  obtain ⟨hlast, hdelay⟩ := settled_of_raise2 htrack hnext
  obtain ⟨recent, older, hsplit, hrecent, hsince⟩ := exists_since .waterPlants pumpWrite h
  have hstop : (acts .waterPlants h).findSome? pumpWrite = some kPumpOffLevel := by
    rw [findSome?_pumpWrite (covered_acts hrun)]
    show ((operations h).findSome? Op.pump?).map pumpLevel = _
    rw [hlast]
    rfl
  refine ⟨recent, older, hsplit, ?_, fun h' holder hh' => ?_⟩
  · rw [operations, sincePump_operations (covered_acts hrun), ← hrecent] at hdelay
    exact opOf_classifies.sublist hdelay
  · obtain ⟨s₁, -, hrun₁, -⟩ := System.Run.of_suffix hrun hh'
    rw [← System.Run.store_eq hrun₁]
    exact (hoff.of_suffix hh').pump_off hrun₁ ((hsince h' holder hh').trans hstop)

/-- **No dry running.** In every run in which the switch is never told `on`, once the watering task is
    constructed:
    the pump is on only in the pump window, with the valve open and at least 8 seconds after
    `openWaterValve`; the window has lasted at most 600 seconds; and the valve begins to close only
    when the pump has been off for a whole delay. -/
theorem no_dry_running {σ₀ : Levels} {h : History} {s : State} (hrun : firmware.Run σ₀ h s)
    (hcons : System.Constructed s .waterPlants) (hoff : NeverSwitchedOn h) :
    (s.store pinWaterPump = kPumpOnLevel →
      (s.store pinElectricValve1 = 1 ∧ s.store pinElectricValve2 = 0) ∧ InPumpWindow h s ∧
      ∃ d, secondsSince openedWrite h = some d ∧ 8 ≤ d) ∧
    (InPumpWindow h s → ∃ d, secondsSince startWrite h = some d ∧ d ≤ 600) ∧
    (∀ m s', firmware.Step s (.act .waterPlants m closeWrite) s' →
      ∃ recent older, h = recent ++ older ∧
        [Action.delayEnd 1000, .delayBegin 1000].Sublist (acts .waterPlants recent) ∧
        ∀ h', older <:+ h' → h' <:+ h →
          firmware.storeAfter σ₀ h' pinWaterPump = kPumpOffLevel) := by
  refine ⟨fun hon => ?_, fun hin => (of_inPumpWindow hrun hcons hin).2.2,
    fun m s' hstep => settled_of_close hrun hoff hstep⟩
  have hin : InPumpWindow h s := by
    rcases hoff.off_or_window hrun hcons with hoff' | hin
    · rw [hon] at hoff'
      cases hoff'
    · exact hin
  obtain ⟨hlines, hopened, -⟩ := of_inPumpWindow hrun hcons hin
  exact ⟨hlines, hin, hopened⟩

/-- A watering of five seconds, as the pump is switched on. -/
theorem no_dry_running_five :
    ∃ h s, firmware.Run (fun _ => 0) h s ∧ s.store pinWaterPump = kPumpOnLevel ∧
      (s.store pinElectricValve1 = 1 ∧ s.store pinElectricValve2 = 0) ∧
      ∃ d, secondsSince openedWrite h = some d ∧ 8 ≤ d := by
  obtain ⟨h, levels, hrun, -, hquiet⟩ := exists_booted fun _ => 0
  have haccepted : requestedSeconds (request "5") = some 5 := by decide
  obtain ⟨opening, todo, hm⟩ := actions_starting haccepted
  have hrun' := hrun.trans (steps_begin levels hm)
  have hon : firmware.performed (opening ++ [.gpioSetLevel pinWaterPump kPumpOnLevel]) levels
      pinWaterPump = kPumpOnLevel := by
    rw [System.performed_append]
    rfl
  have hoff : NeverSwitchedOn (System.beginEvents .waterPlants (request "5")
      (opening ++ [.gpioSetLevel pinWaterPump kPumpOnLevel]) ++ h) := by
    intro m hmem
    rw [received_append, System.received_beginEvents, (hquiet _).2] at hmem
    cases hmem
  obtain ⟨hlines, -, hopened⟩ := (no_dry_running hrun' nofun hoff).1 hon
  exact ⟨_, _, hrun', hon, hlines, hopened⟩

end CroniotWatering.Firmware
