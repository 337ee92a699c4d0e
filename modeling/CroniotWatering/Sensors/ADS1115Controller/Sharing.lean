import CroniotWatering.Components.Ads1x15.Converter
import CroniotWatering.Library.Lock
import CroniotWatering.Sensors.ADS1115Controller.Bus

set_option autoImplicit false

/-! # The converter shared by the sensors

`ADS1115Controller::instance()` is one object, and the tasks of the battery and of the solar panel call it
from their own threads. `sample_raw` holds the driver's mutex from its first transfer to its last. Here
any number of threads make any readings, in any interleaving of their transfers that the mutex allows. -/

namespace CroniotWatering.ADS1115Controller

open Espp Espp.Ads1x15

/-- The readings the threads make, under the mutex of the driver. -/
def sharedConverter : Lock.System (Fin 4) Transfer Reply Ads1x15.Outcome Phase Converter where
  machine pin := (ads initializedBus).sample pin
  start _ := .configure
  reacts := Converter.reacts

variable {Tid : Type} [DecidableEq Tid]

abbrev History (Tid : Type) := List (Lock.Event Tid (Fin 4) Transfer Reply Ads1x15.Outcome)

/-! ## One reading after the other -/

omit [DecidableEq Tid] in
/-- The transfers of a section are those of a reading that returns. -/
theorem run_of_complete {x : Lock.System.Section Tid (Fin 4) Transfer Reply Ads1x15.Outcome}
    (hcomplete : sharedConverter.Complete x) (rest : List Reply) :
    (readValueOverBus initializedBus x.call).run (x.exchanged.map Prod.snd ++ rest)
      = ⟨x.exchanged.map Prod.fst, some (readValueBlocking x.value, rest)⟩ := by
  obtain ⟨p, hpath, hdone⟩ := hcomplete
  have hsample : ((ads initializedBus).sample x.call).run .configure
      (x.exchanged.map Prod.snd ++ rest) = ⟨x.exchanged.map Prod.fst, some (x.value, rest)⟩ := by
    refine (Machine.Path.run_eq hpath rest).trans ?_
    rw [Machine.run_of_done hdone]
    simp [Progress.after]
  rw [run_readValueOverBus initialized_initializedBus, hsample]
  rfl

/-- **The bus sees whole readings.** In every run, whatever the threads and the order of their steps, the
    transfers on the bus are those of complete readings one after the other, each as the code makes them
    on the replies it got, and then some first transfers of at most one more. -/
theorem transfers_serial {d₀ : Converter} {h : History Tid}
    {s : Lock.State Tid (Fin 4) Phase Converter} (hrun : sharedConverter.Run d₀ h s) :
    ∃ (sections : List (Lock.System.Section Tid (Fin 4) Transfer Reply Ads1x15.Outcome))
      (current : List (Transfer × Reply)),
      Lock.System.log h = sections.flatMap Lock.System.Section.exchanged ++ current ∧
      Lock.System.returns h = sections.map Lock.System.Section.returned ∧
      (∀ x ∈ sections, ∀ rest,
        (readValueOverBus initializedBus x.call).run (x.exchanged.map Prod.snd ++ rest)
          = ⟨x.exchanged.map Prod.fst, some (readValueBlocking x.value, rest)⟩) ∧
      ∃ pin, current.map Prod.fst
        <+: ((readValueOverBus initializedBus pin).run (current.map Prod.snd)).requests := by
  obtain ⟨holder, hserial, -⟩ := hrun.serial
  obtain ⟨hlog, hcomplete, hcurrent⟩ := hserial.sections
  refine ⟨_, _, hlog, Lock.System.returns_eq h, fun x hx => run_of_complete (hcomplete x hx), ?_⟩
  cases holder with
  | none =>
      have hnone : Lock.System.current h = [] := hcurrent
      rw [hnone]
      exact ⟨0, List.nil_prefix⟩
  | some holder =>
      obtain ⟨t, pin, p⟩ := holder
      have hpath : ((ads initializedBus).sample pin).Path .configure (Lock.System.current h) p := hcurrent
      refine ⟨pin, ?_⟩
      rw [run_readValueOverBus initialized_initializedBus]
      have hrun := hpath.run_eq []
      rw [List.append_nil] at hrun
      rw [hrun]
      exact List.prefix_append _ _

/-! ## Whose conversion a reading reports -/

/-- The readings that have returned, newest first. -/
def outcomes : History Tid → List (Fin 4 × Ads1x15.Outcome)
  | [] => []
  | .release _ pin outcome :: h => (pin, outcome) :: outcomes h
  | _ :: h => outcomes h

/-- The latest reading to return, if any has, did not fail. -/
def LatestSucceeded (h : History Tid) : Prop :=
  ∀ pin outcome rest, outcomes h = (pin, outcome) :: rest → outcome ≠ none

/-- What the converter is like when the mutex is free. -/
structure Settled (h : History Tid) (d : Converter) : Prop where
  idle : LatestSucceeded h → d.Idle
  /-- The latest reading reports the latest conversion, and that is one of its channel if the reading
      before it had not failed. -/
  own : ∀ t pin code h', h = .release t pin (some code) :: h' →
    code = (ads initializedBus).decode d.converted.2 ∧
      (LatestSucceeded h' → d.converted.1 = muxByChannel pin)

/-- What it is like within a reading. -/
structure Underway (pin : Fin 4) (phase : Phase) (h : History Tid) (d : Converter) : Prop where
  knows : phase.Knows (ads initializedBus) d
  ofChannel : LatestSucceeded h → phase.OfChannel pin d

omit [DecidableEq Tid] in
theorem not_latestSucceeded_failed (t : Tid) (pin : Fin 4) (h : History Tid) :
    ¬ LatestSucceeded (.release t pin none :: h) :=
  fun hlatest => hlatest pin none _ rfl rfl

omit [DecidableEq Tid] in
theorem underway_acquire {h : History Tid} {d : Converter} {t : Tid} {pin : Fin 4}
    (hsettled : Settled h d) : Underway pin .configure (.acquire t pin :: h) d where
  knows := trivial
  ofChannel hlatest := hsettled.idle hlatest

omit [DecidableEq Tid] in
theorem underway_exchange {h : History Tid} {d d' : Converter} {t : Tid} {pin : Fin 4} {phase : Phase}
    {q : Transfer} {reply : Reply} (hunderway : Underway pin phase h d)
    (hq : (sharedConverter.machine pin).move phase = .ask q)
    (hreact : sharedConverter.reacts d q reply d') :
    Underway pin ((sharedConverter.machine pin).next phase reply) (.exchange t q reply :: h) d' where
  knows := Phase.knows_next hq hunderway.knows hreact
  ofChannel hlatest :=
    Phase.ofChannel_next hq hunderway.knows (hunderway.ofChannel hlatest) hreact

omit [DecidableEq Tid] in
theorem settled_release {h : History Tid} {d : Converter} {t : Tid} {pin : Fin 4} {phase : Phase}
    {outcome : Ads1x15.Outcome} (hunderway : Underway pin phase h d)
    (hdone : (sharedConverter.machine pin).move phase = .done outcome) :
    Settled (.release t pin outcome :: h) d := by
  have hphase : phase = .finished outcome := by
    cases phase <;> cases hdone
    rfl
  subst hphase
  cases outcome with
  | none =>
      refine ⟨fun hlatest => absurd hlatest (not_latestSucceeded_failed t pin h), ?_⟩
      intro t' pin' code' h' heq
      cases heq
  | some code =>
      obtain ⟨hidle, hcode⟩ := hunderway.knows
      refine ⟨fun _ => hidle, fun t' pin' code' h' heq => ?_⟩
      cases heq
      exact ⟨hcode, hunderway.ofChannel⟩

/-- **No reading reports another channel.** In every run from an idle converter, whatever the threads and
    the order of their steps: a reading that returns a code reports the latest conversion of the
    converter, and, if no reading failed just before it, that is a conversion of its own channel and of
    no other. -/
theorem reading_reports_own_channel {d₀ : Converter} (hidle : d₀.Idle) {h : History Tid} {t : Tid}
    {pin : Fin 4} {code : Ads1x15.RawCode} {s : Lock.State Tid (Fin 4) Phase Converter}
    (hrun : sharedConverter.Run d₀ (.release t pin (some code) :: h) s) :
    code = (ads initializedBus).decode s.device.converted.2 ∧
      (LatestSucceeded h → ∀ pin', s.device.converted.1 = muxByChannel pin' ↔ pin' = pin) := by
  have hinit : Settled ([] : History Tid) d₀ := ⟨fun _ => hidle, fun _ _ _ _ heq => nomatch heq⟩
  obtain ⟨holder, hheld, hdevice⟩ := hrun.rule (J := Settled) (L := Underway) hinit
    (fun _ _ _ _ => underway_acquire) (fun _ _ _ _ _ _ _ _ => underway_exchange)
    (fun _ _ _ _ _ _ => settled_release)
  have hfree : holder = none := by
    cases hrun with
    | snoc _ hstep =>
        cases hstep with
        | release _ _ => exact hheld.eq_none rfl
  subst hfree
  obtain ⟨hcode, hown⟩ := hdevice.own t pin code h rfl
  refine ⟨hcode, fun hlatest pin' => ⟨fun heq => ?_, fun heq => ?_⟩⟩
  · exact muxByChannel_injective (heq.symm.trans (hown hlatest))
  · rw [heq]
    exact hown hlatest

/-! ## A reading on its own -/

/-- A converter after power-up. -/
def idleConverter : Converter := ⟨0, none, (0, 0)⟩

/-- The bytes of a register. -/
def bytes (result : UInt16) (i : ℕ) : UInt8 := (BasePeripheral.bigEndian result)[i]?.getD 0

theorem ofBigEndian_bytes (result : UInt16) :
    BasePeripheral.ofBigEndian (bytes result 0) (bytes result 1) = result :=
  BasePeripheral.ofBigEndian_of_bigEndian rfl

/-- The transfers of a reading that polls once, with the replies to them. -/
def exchangedFor (pin : Fin 4) (result : UInt16) : List (Transfer × Reply) :=
  ((ads initializedBus).script pin 1).zip
    (List.replicate 4 (.ok (bytes 0)) ++ [.ok (bytes 0x8000), .ok (bytes 0), .ok (bytes result)])

theorem path_exchangedFor (pin : Fin 4) (result : UInt16) :
    ((ads initializedBus).sample pin).Path .configure (exchangedFor pin result)
      (.finished (some ((ads initializedBus).decode result))) := by
  have hpath : ((ads initializedBus).sample pin).Path .configure (exchangedFor pin result)
      (.finished (some ((ads initializedBus).decode
        (BasePeripheral.ofBigEndian (bytes result 0) (bytes result 1))))) :=
    .step rfl (.step rfl (.step rfl (.step rfl (.step rfl (.step rfl (.step rfl (.refl _)))))))
  rwa [ofBigEndian_bytes] at hpath

/-- A write of a register, without time passing before it. -/
theorem reacts_write {d d' : Converter} {address reg : UInt8} {value : UInt16} {byte : ℕ → UInt8}
    (hwrite : d.writeRegister reg value = some d') :
    d.reacts (.write address (reg :: BasePeripheral.bigEndian value)) (.ok byte) d' := by
  refine ⟨d, .refl d, fun d₁ hd₁ => ?_⟩
  rw [@BasePeripheral.ofBigEndian_of_bigEndian value _ _ rfl, hwrite] at hd₁
  exact Option.some.inj hd₁

/-- A selection of a register, likewise. -/
theorem reacts_select (d : Converter) (address reg : UInt8) (byte : ℕ → UInt8) :
    d.reacts (.write address [reg]) (.ok byte) { d with pointer := reg } :=
  ⟨d, .refl d, rfl⟩

/-- An idle converter can serve a reading with any result: the conversion completes while the driver asks
    for it. -/
theorem served_exchangedFor {d : Converter} (hidle : d.Idle) (pin : Fin 4) (result : UInt16) :
    Served (fun d q reply d' => d.reacts q reply d' ∧
        (d'.converted = d.converted ∨ d'.converted = (muxByChannel pin, result)))
      d (exchangedFor pin result) ⟨pointerConvert, none, (muxByChannel pin, result)⟩ := by
  -- configured, and both thresholds set
  refine .step ⟨reacts_write (d.writeRegister_configWord _ pin hidle), Or.inl rfl⟩ ?_
  refine .step ⟨reacts_write rfl, Or.inl rfl⟩ (.step ⟨reacts_write rfl, Or.inl rfl⟩ ?_)
  refine .step ⟨reacts_select _ _ _ _, Or.inl rfl⟩ ?_
  have hpoll : Converter.reacts ⟨pointerConfig, some (muxByChannel pin), d.converted⟩
      (.read 0x48 2) (.ok (bytes 0x8000)) ⟨pointerConfig, none, (muxByChannel pin, result)⟩ :=
    ⟨_, .completes result rfl, rfl, fun _ => ⟨fun _ => rfl, fun _ => by decide⟩,
      fun h => absurd h (show pointerConfig ≠ pointerConvert by decide)⟩
  refine .step ⟨hpoll, Or.inr rfl⟩ (.step ⟨reacts_select _ _ _ _, Or.inl rfl⟩ ?_)
  refine .step ⟨⟨_, .refl _, rfl, ?_, fun _ => ofBigEndian_bytes result⟩, Or.inl rfl⟩ (.refl _)
  exact fun h => absurd h (show pointerConvert ≠ pointerConfig by decide)

/-- A thread reads a channel, and none disturbs it. -/
def reading (t : Tid) (pin : Fin 4) (result : UInt16) (h : History Tid) : History Tid :=
  .release t pin (some ((ads initializedBus).decode result)) ::
    (Lock.System.exchanges t (exchangedFor pin result) ++ .acquire t pin :: h)

/-- While no reading is under way and the converter is idle, any thread can read any channel. -/
theorem run_reading {d₀ : Converter} {h : History Tid} {s : Lock.State Tid (Fin 4) Phase Converter}
    (hrun : sharedConverter.Run d₀ h s) (hfree : s.lock = none) (hidle : s.device.Idle) (t : Tid)
    (pin : Fin 4) (result : UInt16) : ∃ s', sharedConverter.Run d₀ (reading t pin result h) s' ∧
      s'.lock = none ∧ s'.device.Idle := by
  have hserved := (served_exchangedFor hidle pin result).mono fun _ _ _ _ hreact => hreact.1
  obtain ⟨s', hrun', hfree', hd⟩ :=
    hrun.call (t := t) (path_exchangedFor pin result) rfl hfree hserved
  exact ⟨s', hrun', hfree', by rw [hd]; rfl⟩

/-- Two threads on two channels, and what they read differs. -/
theorem run_readings : ∃ s, sharedConverter.Run idleConverter
    (reading true 1 0x3000 (reading false 0 0x1000 [])) s := by
  have hinit : sharedConverter.Run idleConverter [] ⟨fun _ : Bool => .idle, none, idleConverter⟩ := .init
  obtain ⟨s, hrun, hfree, hidle⟩ := run_reading hinit rfl rfl false 0 0x1000
  obtain ⟨s', hrun', -⟩ := run_reading hrun hfree hidle true 1 0x3000
  exact ⟨s', hrun'⟩

theorem transfers_serial_readings :
    ∃ s, sharedConverter.Run idleConverter (reading true 1 0x3000 (reading false 0 0x1000 [])) s ∧
    ∃ (sections : List (Lock.System.Section Bool (Fin 4) Transfer Reply Ads1x15.Outcome))
      (current : List (Transfer × Reply)),
      Lock.System.log (reading true 1 0x3000 (reading false 0 0x1000 []))
        = sections.flatMap Lock.System.Section.exchanged ++ current ∧
      [(false, 0, some ((ads initializedBus).decode 0x1000)),
        (true, 1, some ((ads initializedBus).decode 0x3000))]
        = sections.map Lock.System.Section.returned ∧
      (∀ x ∈ sections, ∀ rest,
        (readValueOverBus initializedBus x.call).run (x.exchanged.map Prod.snd ++ rest)
          = ⟨x.exchanged.map Prod.fst, some (readValueBlocking x.value, rest)⟩) ∧
      ∃ pin, current.map Prod.fst
        <+: ((readValueOverBus initializedBus pin).run (current.map Prod.snd)).requests := by
  obtain ⟨s, hrun⟩ := run_readings
  exact ⟨s, hrun, transfers_serial hrun⟩

theorem reading_reports_own_channel_readings :
    ∃ s, sharedConverter.Run idleConverter (reading true 1 0x3000 (reading false 0 0x1000 [])) s ∧
      (ads initializedBus).decode 0x3000 = (ads initializedBus).decode s.device.converted.2 ∧
      ∀ pin', s.device.converted.1 = muxByChannel pin' ↔ pin' = 1 := by
  obtain ⟨s, hrun⟩ := run_readings
  obtain ⟨hcode, hown⟩ := reading_reports_own_channel (show idleConverter.Idle from rfl) hrun
  refine ⟨s, hrun, hcode, hown fun pin outcome rest heq => ?_⟩
  -- the reading before it is the one of the first thread
  have hbefore : [((0 : Fin 4), some ((ads initializedBus).decode 0x1000))] = (pin, outcome) :: rest := heq
  cases hbefore
  nofun

end CroniotWatering.ADS1115Controller
