import CroniotWatering.Library.Loops
import CroniotWatering.Sensors.ADS1115Controller.Inputs
import CroniotWatering.Sensors.Measurement
import CroniotWatering.Sensors.SensorBattery.Percentage

set_option autoImplicit false

/-! # The analog sensors side by side

The tasks of the battery and of the solar panel run at once, and take their readings from the one converter.
Their transfers interleave as its mutex allows. What a sensor publishes is what its cycle alone comes to, on
the replies to its own transfers; and as long as no reading fails, it depends on its own channels only. -/

namespace CroniotWatering

open Espp Espp.Ads1x15 ADS1115Controller
open Lock.System (sections log Section)

/-- The sensors that read the converter. -/
inductive AnalogSensor where
  | battery
  | solar
deriving DecidableEq

namespace AnalogSensor

/-- One cycle of a sensor's task, with the readings it makes; the value is what it publishes. -/
def cycleWith {m : Type → Type} [Monad m] (read : Fin 4 → m Int) : AnalogSensor → m (List Publication)
  | .battery => do
      let cycle ← SensorBattery.taskBatteryWith read
      pure cycle.published
  | .solar => do
      let cycle ← SensorSolarPanel.taskSolarWith read
      pure [.sendSensorData cycle.sensorUid cycle.solarPowerStr]

def currentPin : AnalogSensor → Fin 4
  | .battery => SensorBattery.adsInputBatteryCurrent
  | .solar => SensorSolarPanel.adsInputSolarCurrent

def voltagePin : AnalogSensor → Fin 4
  | .battery => SensorBattery.adsInputBatteryVoltage
  | .solar => SensorSolarPanel.adsInputSolarVoltage

/-- What a cycle publishes for the values of its two measurements. -/
def published : AnalogSensor → SensorBattery.AdcValues → SensorBattery.AdcValues → List Publication
  | .battery, current, voltage => (SensorBattery.taskBattery current voltage).published
  | .solar, current, voltage =>
      let cycle := SensorSolarPanel.cycleOf current.accumulate.average voltage.accumulate.average
      [.sendSensorData cycle.sensorUid cycle.solarPowerStr]

/-- What it publishes for the outcomes of two bursts of conversions. -/
def publishedFor : AnalogSensor → Burst → Burst → List Publication
  | .battery, current, voltage =>
      (SensorBattery.taskBattery (SensorBattery.adcValues current)
        (SensorBattery.adcValues voltage)).published
  | .solar, current, voltage =>
      let cycle := SensorSolarPanel.taskSolar current voltage
      [.sendSensorData cycle.sensorUid cycle.solarPowerStr]

/-- The tasks: each repeats its cycle, and gets of a reading what `readValueBlocking` returns. -/
def tasks : Lock.Loops AnalogSensor (Fin 4) Ads1x15.Outcome Int (List Publication) where
  body t := t.cycleWith Script.perform
  view := readValueBlocking

/-! ## A cycle as a script -/

section

variable {m : Type → Type} [Monad m] [LawfulMonad m] (f : Fin 4 → m Int)

theorem interpret_readValues (pin : Fin 4) (n : ℕ) :
    (readValues Script.perform pin n).interpret f = readValues f pin n := by
  induction n with
  | zero => rfl
  | succ n ih =>
      simp only [readValues, Script.interpret_bind, ih, Script.interpret_perform]
      rfl

theorem interpret_measure (pin : Fin 4) :
    (ADS1115Controller.measure Script.perform pin).interpret f = ADS1115Controller.measure f pin := by
  simp only [ADS1115Controller.measure, Script.interpret_bind, interpret_readValues]
  rfl

/-- The script of a cycle is the cycle, whatever a reading is. -/
theorem interpret_body (t : AnalogSensor) : (tasks.body t).interpret f = t.cycleWith f := by
  show (t.cycleWith Script.perform).interpret f = t.cycleWith f
  cases t with
  | battery =>
      simp only [cycleWith, SensorBattery.taskBatteryWith, Script.interpret_bind, interpret_measure]
      rfl
  | solar =>
      simp only [cycleWith, SensorSolarPanel.taskSolarWith, Script.interpret_bind, interpret_measure]
      rfl

end

section

variable (value : Fin 4 → Int)

theorem calls_readValues (pin : Fin 4) (n : ℕ) :
    (readValues Script.perform pin n).calls value = List.replicate n pin := by
  induction n with
  | zero => rfl
  | succ n ih =>
      rw [readValues, Script.calls_bind, ih, Script.calls_bind, List.replicate_succ']
      rfl

theorem calls_measure (pin : Fin 4) :
    (ADS1115Controller.measure Script.perform pin).calls value = List.replicate 20 pin := by
  rw [ADS1115Controller.measure, Script.calls_bind, calls_readValues]
  exact List.append_nil _

/-- A cycle reads its current twenty times, then its voltage twenty times, whatever the values. -/
theorem calls_body (t : AnalogSensor) : (tasks.body t).calls value
    = List.replicate 20 t.currentPin ++ List.replicate 20 t.voltagePin := by
  cases t with
  | battery =>
      show (SensorBattery.taskBatteryWith Script.perform >>= _).calls value = _
      simp only [SensorBattery.taskBatteryWith, Script.calls_bind, calls_measure, List.append_assoc]
      rfl
  | solar =>
      show (SensorSolarPanel.taskSolarWith Script.perform >>= _).calls value = _
      simp only [SensorSolarPanel.taskSolarWith, Script.calls_bind, calls_measure, List.append_assoc]
      rfl

end

theorem body_ne_done (t : AnalogSensor) (published : List Publication) :
    tasks.body t ≠ .done published := by
  cases t <;> nofun

/-! ## A cycle on the bus -/

/-- **A cycle on the bus is one on the outcomes of its conversions.** Whatever the bus replies, a cycle that
    comes to its end publishes what it publishes for two bursts whose outcomes are those of successive
    readings, first twenty of the current, then twenty of the voltage. -/
theorem cycle_refines {t : AnalogSensor} {i2c : I2c} {rs rest : List Reply} {qs : List Transfer}
    {publications : List Publication}
    (h : (t.cycleWith (readValueOverBus i2c)).run rs = ⟨qs, some (publications, rest)⟩) :
    ∃ (current voltage : Burst) (currentParts voltageParts : List (List Reply)),
      rs = currentParts.flatten ++ (voltageParts.flatten ++ rest) ∧
      (∀ used ∈ currentParts, IsReading i2c t.currentPin used) ∧
      (∀ used ∈ voltageParts, IsReading i2c t.voltagePin used) ∧
      current.outcomes = currentParts.map (outcomeOf i2c) ∧
      voltage.outcomes = voltageParts.map (outcomeOf i2c) ∧
      publications = t.publishedFor current voltage := by
  cases t with
  | battery =>
      simp only [cycleWith] at h
      obtain ⟨qs₁, cycle, mid, qs₂, hcycle, hend, -⟩ := Dialogue.run_bind_inv h
      obtain ⟨-, rfl, rfl⟩ := Dialogue.run_pure_inv hend
      obtain ⟨current, voltage, currentParts, voltageParts, hrs, hcurrent, hvoltage, houtcomes,
        houtcomes', rfl⟩ := SensorBattery.taskBatteryWith_refines hcycle
      exact ⟨current, voltage, currentParts, voltageParts, hrs, hcurrent, hvoltage, houtcomes,
        houtcomes', rfl⟩
  | solar =>
      simp only [cycleWith] at h
      obtain ⟨qs₁, cycle, mid, qs₂, hcycle, hend, -⟩ := Dialogue.run_bind_inv h
      obtain ⟨-, rfl, rfl⟩ := Dialogue.run_pure_inv hend
      obtain ⟨current, voltage, currentParts, voltageParts, hrs, hcurrent, hvoltage, houtcomes,
        houtcomes', rfl⟩ := SensorSolarPanel.taskSolarWith_refines hcycle
      exact ⟨current, voltage, currentParts, voltageParts, hrs, hcurrent, hvoltage, houtcomes,
        houtcomes', rfl⟩

/-- What the channels measure in the runs below. -/
def measured : Fin 4 → UInt16
  | 0 => 0x1000
  | 1 => 0x3000
  | 2 => 0x3800
  | 3 => 0x0800

/-- The replies to the forty readings of a cycle, each of which polls once. -/
def cycleReplies (t : AnalogSensor) : List Reply :=
  (List.replicate 20 t.currentPin ++ List.replicate 20 t.voltagePin).flatMap fun pin =>
    (exchangedFor pin (measured pin)).map Prod.snd

theorem run_cycle (t : AnalogSensor) : ∃ qs, (t.cycleWith (readValueOverBus initializedBus)).run t.cycleReplies
    = ⟨qs, some ((tasks.body t).eval fun pin => readingOf (measured pin), [])⟩ := by
  have hreading : ∀ pin rest, (readValueOverBus initializedBus pin).run
      ((exchangedFor pin (measured pin)).map Prod.snd ++ rest)
      = ⟨(exchangedFor pin (measured pin)).map Prod.fst, some (readingOf (measured pin), rest)⟩ :=
    fun pin rest => run_of_complete (x := ⟨(), pin, exchangedFor pin (measured pin), _⟩)
      ⟨_, path_exchangedFor pin (measured pin), rfl⟩ rest
  have hrun := Script.run_calls hreading (tasks.body t) []
  rw [calls_body, interpret_body, List.append_nil] at hrun
  exact ⟨_, hrun⟩

theorem cycle_refines_battery :
    ∃ (current voltage : Burst) (currentParts voltageParts : List (List Reply)),
      AnalogSensor.battery.cycleReplies = currentParts.flatten ++ (voltageParts.flatten ++ []) ∧
      (∀ used ∈ currentParts, IsReading initializedBus AnalogSensor.battery.currentPin used) ∧
      (∀ used ∈ voltageParts, IsReading initializedBus AnalogSensor.battery.voltagePin used) ∧
      current.outcomes = currentParts.map (outcomeOf initializedBus) ∧
      voltage.outcomes = voltageParts.map (outcomeOf initializedBus) ∧
      ((tasks.body .battery).eval fun pin => readingOf (measured pin))
        = AnalogSensor.battery.publishedFor current voltage := by
  obtain ⟨qs, hrun⟩ := run_cycle .battery
  exact cycle_refines hrun

/-! ## What the values say -/

section

variable (P : Fin 4 → Int → Prop)

theorem ensures_readValues (pin : Fin 4) (n : ℕ) :
    (readValues Script.perform pin n).Ensures P fun values => ∀ value ∈ values.toList, P pin value := by
  induction n with
  | zero => exact .done fun value hvalue => nomatch hvalue
  | succ n ih =>
      refine ih.bind fun values hvalues => (Script.ensures_perform P pin).bind fun value hvalue => ?_
      refine .done fun v hv => ?_
      rw [Vector.toList_push] at hv
      rcases List.mem_append.1 hv with hv | hv
      · exact hvalues v hv
      · rw [List.mem_singleton.1 hv]
        exact hvalue

theorem ensures_measure (pin : Fin 4) :
    (ADS1115Controller.measure Script.perform pin).Ensures P fun adc => ∀ value ∈ adc.values, P pin value :=
  (ensures_readValues P pin 20).bind fun _ hvalues => .done hvalues

end

/-! ## Interleaved cycles -/

theorem run_nil_readValueOverBus (pin : Fin 4) :
    ((readValueOverBus initializedBus pin).run []).result = none := by
  rw [run_readValueOverBus initialized_initializedBus, Machine.run_nil_of_ask rfl]
  rfl

/-- **Each sensor works as if it were alone.** In every run of the two tasks, whatever the order of their
    transfers, the bus carries whole readings; and the readings of a sensor are those of whole cycles and of
    a cycle not yet at its end: the cycle's code alone, on the replies to the sensor's own transfers, makes
    these transfers, and publishes what the sensor published. -/
theorem cycles_alone {d₀ : Converter} {h : History AnalogSensor}
    {s : Lock.State AnalogSensor (Fin 4) Phase Converter} (hrun : sharedConverter.Run d₀ h s)
    (hobeys : tasks.Obeys h) (t : AnalogSensor) :
    log h = (sections h).flatMap Section.exchanged ++ Lock.System.current h ∧
    ∃ (cycles : List (List (Section AnalogSensor (Fin 4) Transfer Reply Ads1x15.Outcome)
        × List Publication))
      (begun : List (Section AnalogSensor (Fin 4) Transfer Reply Ads1x15.Outcome)),
      ((sections h).filter fun x => x.thread = t) = cycles.flatMap Prod.fst ++ begun ∧
      tasks.outputs t h = cycles.map Prod.snd ∧
      (∀ cycle ∈ cycles, ∀ rest, (t.cycleWith (readValueOverBus initializedBus)).run
          (cycle.1.flatMap Section.replies ++ rest)
        = ⟨cycle.1.flatMap Section.requests, some (cycle.2, rest)⟩) ∧
      ((t.cycleWith (readValueOverBus initializedBus)).run
        (begun.flatMap Section.replies)).result = none := by
  obtain ⟨holder, hserial, -⟩ := hrun.serial
  obtain ⟨hlog, -, -⟩ := hserial.sections
  refine ⟨hlog, ?_⟩
  have halone := hobeys.outputs_alone (L := tasks) (f := readValueOverBus initializedBus)
    (fun _ hcomplete rest => run_of_complete hcomplete rest) run_nil_readValueOverBus body_ne_done hrun t
  rw [interpret_body] at halone
  exact halone

theorem mem_outcomes_iff {h : History AnalogSensor} {pin : Fin 4} {outcome : Ads1x15.Outcome} :
    (pin, outcome) ∈ outcomes h ↔ ∃ x ∈ sections h, (x.call, x.value) = (pin, outcome) := by
  induction h with
  | nil => simp [outcomes, sections]
  | cons e h ih =>
      cases e with
      | acquire | exchange => exact ih
      | release t pin' outcome' =>
          simp only [outcomes, sections, List.mem_cons, ih, List.mem_append, List.not_mem_nil, or_false]
          constructor
          · rintro (heq | ⟨x, hx, heq⟩)
            · exact ⟨_, Or.inr rfl, heq.symm⟩
            · exact ⟨x, Or.inl hx, heq⟩
          · rintro ⟨x, hx | rfl, heq⟩
            · exact Or.inr ⟨x, hx, heq⟩
            · exact Or.inl heq.symm

/-- On an idle converter: a reading of the battery, then a cycle of the panel, then the rest of the cycle of the
    battery. -/
theorem exists_cycles : ∃ h s,
    (sharedInputs fun pin r => r = measured pin).Run idleConverter h s ∧ tasks.Obeys h ∧ AllSucceeded h ∧
      ∀ t, tasks.outputs t h = [(tasks.body t).eval fun pin => readingOf (measured pin)] := by
  have hserves : Lock.Loops.Serves (sharedInputs fun pin r => r = measured pin) Converter.Idle
      fun pin => some ((ads initializedBus).decode (measured pin)) :=
    fun pin _ hidle => ⟨_, _, _, path_exchangedFor pin _, rfl, served_inputs hidle rfl, rfl⟩
  obtain ⟨k, hbody, hcalls⟩ :=
    Script.eq_call_of_calls (calls_body (fun pin => readingOf (measured pin)) .battery)
  obtain ⟨k', hnext, -⟩ := Script.eq_call_of_calls hcalls
  obtain ⟨h₁, s₁, hready₁, hbattery, hnone, hsolar⟩ := Lock.Loops.Ready.exists_call (L := tasks)
    (t := .battery) hserves (.init (show idleConverter.Idle from rfl)) hbody
  -- its second reading is still to come
  have hsecond : Lock.Loops.advance (tasks.position .battery ([] : History AnalogSensor))
      (tasks.view (some ((ads initializedBus).decode (measured AnalogSensor.battery.currentPin))))
      = .call AnalogSensor.battery.currentPin k' := by
    rw [← hnext, Lock.Loops.position, hbody]
    rfl
  obtain ⟨h₂, s₂, hready₂, houtput, hspares⟩ := hready₁.exists_round hserves (body_ne_done .solar)
  obtain ⟨h₃, s₃, hready₃, houtput', hspares'⟩ := hready₂.exists_round hserves (body_ne_done .battery)
  refine ⟨h₃, s₃, hready₃.run, hready₃.obeys, fun pin hpin => ?_, fun t => ?_⟩
  · obtain ⟨x, hx, heq⟩ := mem_outcomes_iff.1 hpin
    cases (hready₃.values x hx).symm.trans (Prod.mk.inj heq).2
  · cases t with
    | battery =>
        obtain ⟨hposition, houtputs⟩ := hspares .battery (by decide)
        rw [houtput', hposition, houtputs, hbattery, hnone, hsecond, hbody, Script.eval, hnext]
        rfl
    | solar =>
        obtain ⟨hposition, houtputs⟩ := hsolar .solar (by decide)
        rw [(hspares' .solar (by decide)).2, houtput, hposition, houtputs]
        rfl

theorem cycles_alone_cycles : ∃ h s, sharedConverter.Run idleConverter h s ∧
    ∀ t, (tasks.outputs t h).length = 1 ∧
    log h = (sections h).flatMap Section.exchanged ++ Lock.System.current h ∧
    ∃ (cycles : List (List (Section AnalogSensor (Fin 4) Transfer Reply Ads1x15.Outcome)
        × List Publication))
      (begun : List (Section AnalogSensor (Fin 4) Transfer Reply Ads1x15.Outcome)),
      ((sections h).filter fun x => x.thread = t) = cycles.flatMap Prod.fst ++ begun ∧
      tasks.outputs t h = cycles.map Prod.snd ∧
      (∀ cycle ∈ cycles, ∀ rest, (t.cycleWith (readValueOverBus initializedBus)).run
          (cycle.1.flatMap Section.replies ++ rest)
        = ⟨cycle.1.flatMap Section.requests, some (cycle.2, rest)⟩) ∧
      ((t.cycleWith (readValueOverBus initializedBus)).run
        (begun.flatMap Section.replies)).result = none := by
  obtain ⟨h, s, hrun, hobeys, -, houtputs⟩ := exists_cycles
  have hshared : sharedConverter.Run idleConverter h s := .of_reacts (fun _ _ _ _ hreact => hreact.1) hrun
  exact ⟨h, s, hshared, fun t => ⟨by rw [houtputs]; rfl, cycles_alone hshared hobeys t⟩⟩

/-! ## From the inputs to what is published -/

/-- What is published comes from values of the sensor's own channels. -/
def FromReadings (P : Fin 4 → Int → Prop) (t : AnalogSensor) (publications : List Publication) : Prop :=
  ∃ current voltage : SensorBattery.AdcValues, (∀ value ∈ current.values, P t.currentPin value) ∧
    (∀ value ∈ voltage.values, P t.voltagePin value) ∧ publications = t.published current voltage

theorem ensures_body (P : Fin 4 → Int → Prop) (t : AnalogSensor) :
    (tasks.body t).Ensures P (FromReadings P t) := by
  cases t with
  | battery =>
      refine Script.Ensures.bind (R := fun cycle => FromReadings P .battery cycle.published) ?_
        fun _ hcycle => .done hcycle
      refine (ensures_measure P _).bind fun current hcurrent => ?_
      refine (ensures_measure P _).bind fun voltage hvoltage => ?_
      exact .done ⟨current, voltage, hcurrent, hvoltage, rfl⟩
  | solar =>
      refine Script.Ensures.bind (R := fun cycle => FromReadings P .solar
        [.sendSensorData cycle.sensorUid cycle.solarPowerStr]) ?_ fun _ hcycle => .done hcycle
      refine (ensures_measure P _).bind fun current hcurrent => ?_
      refine (ensures_measure P _).bind fun voltage hvoltage => ?_
      exact .done ⟨current, voltage, hcurrent, hvoltage, rfl⟩

/-- What a reading of a channel can return. -/
def Reads (possible : Fin 4 → UInt16 → Prop) (pin : Fin 4) (value : Int) : Prop :=
  ∃ result, possible pin result ∧ value = readingOf result

variable {possible : Fin 4 → UInt16 → Prop} {d₀ : Converter} {h : History AnalogSensor}
  {s : Lock.State AnalogSensor (Fin 4) Phase Converter}

theorem reads_of_faithful (hfaithful : Faithful possible h) (hok : AllSucceeded h) :
    ∀ x ∈ sections h, Reads possible x.call (tasks.view x.value) := by
  intro x hx
  have hmem : (x.call, x.value) ∈ outcomes h := mem_outcomes_iff.2 ⟨x, hx, rfl⟩
  cases hvalue : x.value with
  | none =>
      rw [hvalue] at hmem
      exact absurd hmem (hok x.call)
  | some code =>
      rw [hvalue] at hmem
      obtain ⟨result, hpossible, hcode⟩ := hfaithful hok x.call code hmem
      exact ⟨result, hpossible, by rw [hcode]; rfl⟩

/-- **A sensor publishes what its own channels measure.** As long as no reading fails, whatever the order of
    the two tasks' transfers: everything published is what the sensor's cycle makes of values that readings
    of its own two channels can return. -/
theorem published_of_inputs (hidle : d₀.Idle) (hgenuine : Genuine possible d₀)
    (hrun : (sharedInputs possible).Run d₀ h s) (hobeys : tasks.Obeys h) (hok : AllSucceeded h)
    (t : AnalogSensor) : ∀ publications ∈ tasks.outputs t h, FromReadings (Reads possible) t publications :=
  hobeys.outputs_ensure hrun (ensures_body _ t)
    (reads_of_faithful (faithful_of_run hidle hgenuine hrun) hok)

theorem published_of_inputs_cycles : ∃ h s,
    (sharedInputs fun pin r => r = measured pin).Run idleConverter h s ∧
      ∀ t, ∃ publications ∈ tasks.outputs t h,
        FromReadings (Reads fun pin r => r = measured pin) t publications := by
  obtain ⟨h, s, hrun, hobeys, hok, houtputs⟩ := exists_cycles
  refine ⟨h, s, hrun, fun t => ⟨_, by rw [houtputs]; exact List.mem_singleton_self _, ?_⟩⟩
  exact published_of_inputs (show idleConverter.Idle from rfl) genuine_idleConverter hrun hobeys hok
    t _ (by rw [houtputs]; exact List.mem_singleton_self _)

/-! ## The percentage, between bounds -/

theorem meanMv_mem {adc : SensorBattery.AdcValues} {lo hi : Int} (hlo : 0 ≤ lo)
    (hvalues : ∀ value ∈ adc.values, lo ≤ value ∧ value ≤ hi) :
    adc.readings ≠ [] ∧ (lo : ℚ) ≤ adc.meanMv ∧ adc.meanMv ≤ hi := by
  have hreadings : adc.readings = adc.values :=
    List.filter_eq_self.2 fun value hvalue => decide_eq_true (hlo.trans (hvalues value hvalue).1)
  have hmin := List.card_nsmul_le_sum adc.values lo fun value hvalue => (hvalues value hvalue).1
  have hmax := List.sum_le_card_nsmul adc.values hi fun value hvalue => (hvalues value hvalue).2
  rw [adc.length_eq, nsmul_eq_mul] at hmin hmax
  have hmin' : (20 : ℚ) * lo ≤ (adc.values.sum : ℤ) := by exact_mod_cast hmin
  have hmax' : ((adc.values.sum : ℤ) : ℚ) ≤ 20 * hi := by exact_mod_cast hmax
  rw [SensorBattery.AdcValues.meanMv, hreadings, adc.length_eq, Nat.cast_ofNat]
  refine ⟨fun hnil => ?_, ?_, ?_⟩
  · have hlength := adc.length_eq
    rw [hnil] at hlength
    cases hlength
  · rw [le_div_iff₀ (by norm_num)]
    linarith
  · rw [div_le_iff₀ (by norm_num)]
    linarith

/-- **The level of the battery**, with the solar panel on the same converter: if the voltage channel measures
    between `lo` and `hi` millivolts and no reading fails, each cycle of the battery reports a percentage
    between those for `lo` and `hi`, and a power. -/
theorem percentage_of_inputs {lo hi : Int} (hlo : 0 ≤ lo)
    (hinput : ∀ result, possible SensorBattery.adsInputBatteryVoltage result →
      lo ≤ readingOf result ∧ readingOf result ≤ hi)
    (hidle : d₀.Idle) (hgenuine : Genuine possible d₀) (hrun : (sharedInputs possible).Run d₀ h s)
    (hobeys : tasks.Obeys h) (hok : AllSucceeded h) :
    ∀ publications ∈ tasks.outputs .battery h, ∃ percentage power,
      publications = [.reportSample sensorBatteryPercentage percentage,
        .sendSensorData sensorBatteryPowerConsumption power] ∧
      SensorBattery.percentageOfMv lo ≤ percentage ∧ percentage ≤ SensorBattery.percentageOfMv hi := by
  intro publications hpublications
  obtain ⟨current, voltage, -, hvoltage, rfl⟩ := hobeys.outputs_ensure hrun (ensures_body _ .battery)
    (reads_of_faithful (faithful_of_run hidle hgenuine hrun) hok) publications hpublications
  have hvalues : ∀ value ∈ voltage.values, lo ≤ value ∧ value ≤ hi := by
    intro value hvalue
    obtain ⟨result, hpossible, rfl⟩ := hvoltage value hvalue
    exact hinput result hpossible
  obtain ⟨hreadings, hmin, hmax⟩ := meanMv_mem hlo hvalues
  have hpercentage := SensorBattery.percentages_taskBattery current hreadings
  refine ⟨_, _, rfl, ?_⟩
  rw [List.cons.inj hpercentage |>.1]
  exact ⟨SensorBattery.percentageOfMv_mono hmin, SensorBattery.percentageOfMv_mono hmax⟩

/-- The voltage channel measures 2304 mV. -/
theorem percentage_of_inputs_cycles : ∃ h s percentage power,
    (sharedInputs fun pin r => r = measured pin).Run idleConverter h s ∧
      (tasks.outputs .solar h).length = 1 ∧
      tasks.outputs .battery h = [[.reportSample sensorBatteryPercentage percentage,
        .sendSensorData sensorBatteryPowerConsumption power]] ∧
      SensorBattery.percentageOfMv (2300 : ℤ) ≤ percentage ∧
      percentage ≤ SensorBattery.percentageOfMv (2310 : ℤ) := by
  obtain ⟨h, s, hrun, hobeys, hok, houtputs⟩ := exists_cycles
  have hinput : ∀ result, result = measured SensorBattery.adsInputBatteryVoltage →
      2300 ≤ readingOf result ∧ readingOf result ≤ 2310 := by
    rintro _ rfl
    decide +kernel
  obtain ⟨percentage, power, heq, hmin, hmax⟩ := percentage_of_inputs (by decide) hinput
    (show idleConverter.Idle from rfl) genuine_idleConverter hrun hobeys hok _
    (by rw [houtputs]; exact List.mem_singleton_self _)
  exact ⟨h, s, percentage, power, hrun, by rw [houtputs]; rfl, by rw [houtputs, heq], hmin, hmax⟩

end AnalogSensor

end CroniotWatering
