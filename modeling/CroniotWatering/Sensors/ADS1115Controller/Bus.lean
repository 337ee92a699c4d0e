import CroniotWatering.Components.Ads1x15.Scale
import CroniotWatering.Components.Ads1x15.Transcript

set_option autoImplicit false

/-! # A reading over the bus

`ADS1115Controller` with its two members: the bus, and the driver over the bus. A reading comes to what
the sensors take it for, a conversion that yields a code or fails; its transfers and its end are those
of a sample. -/

namespace CroniotWatering.ADS1115Controller

open Espp

/-- `ads`, as the constructor makes it. -/
def ads (i2c : I2c) : Espp.Ads1x15 where
  base := .overI2c i2c 0x48
  gain := .twothirds
  chip := .ads1115 .sps128

/-- `readValueBlocking`, with the transfers it makes. -/
def readValueOverBus (i2c : I2c) (pin : Fin 4) : BusM Int := do
  let (valueMv, ec) ← (ads i2c).sampleMv pin none
  if ec.isSome then pure (-1) else pure (truncate valueMv)

/-- What the transfers of a reading come to. -/
def outcomeOf (i2c : I2c) (used : List Reply) : Ads1x15.Outcome := (ads i2c).outcomeOf used

theorem wired {i2c : I2c} (hinit : i2c.initialized = true) : (ads i2c).base.Wired :=
  ⟨i2c, hinit, rfl⟩

/-- A bus that is up. -/
def initializedBus : I2c := .init true true

theorem initialized_initializedBus : initializedBus.initialized = true := rfl

/-- What the code makes of the result of `sample_raw`. -/
def ofRawResult (i2c : I2c) (result : Ads1x15.RawCode × ErrorCode) : Int :=
  if result.2.isSome then -1 else truncate ((ads i2c).rawToMv result.1)

theorem readValueOverBus_eq (i2c : I2c) (pin : Fin 4) :
    readValueOverBus i2c pin
      = (ads i2c).sampleRaw pin none >>= fun result => pure (ofRawResult i2c result) := by
  unfold readValueOverBus Espp.Ads1x15.sampleMv
  rw [bind_assoc]
  congr 1
  funext result
  obtain ⟨raw, ec⟩ := result
  cases ec <;> rfl

theorem ofRawResult_rawResult (i2c : I2c) (outcome : Ads1x15.Outcome) :
    ofRawResult i2c (Espp.Ads1x15.rawResult outcome) = readValueBlocking outcome := by
  cases outcome <;> rfl

/-- On a bus that is up, a reading is a sample. -/
theorem run_readValueOverBus {i2c : I2c} (hinit : i2c.initialized = true) (pin : Fin 4)
    (rs : List Reply) :
    (readValueOverBus i2c pin).run rs
      = (((ads i2c).sample pin).run .configure rs).map readValueBlocking := by
  rw [readValueOverBus_eq, Dialogue.run_bind_pure, Espp.Ads1x15.run_sampleRaw (wired hinit),
    Progress.map_map]
  congr 1
  funext outcome
  exact ofRawResult_rawResult i2c outcome

/-- On a bus that is not, a reading fails without a transfer. -/
theorem run_readValueOverBus_of_not_initialized {i2c : I2c} (hinit : i2c.initialized = false)
    (pin : Fin 4) (rs : List Reply) : (readValueOverBus i2c pin).run rs = ⟨[], some (-1, rs)⟩ := by
  have hwrite : ∀ regAddr data ec, (ads i2c).base.writeU16ToRegister regAddr data ec
      = pure (some .ioError) := by
    intro regAddr data ec
    simp [BasePeripheral.writeU16ToRegister, BasePeripheral.writeData, ads, BasePeripheral.overI2c,
      I2c.write, hinit, BasePeripheral.ioErrorUnless]
  rw [readValueOverBus_eq, Espp.Ads1x15.sampleRaw, hwrite]
  rfl

/-! ## What it comes to -/

/-- The reading of a path: its replies are enough for it, and it has the value of their outcome. -/
theorem run_of_path {i2c : I2c} (hinit : i2c.initialized = true) {pin : Fin 4}
    {es : List (Transfer × Reply)} {outcome : Ads1x15.Outcome}
    (hpath : ((ads i2c).sample pin).Path .configure es (.finished outcome)) :
    (readValueOverBus i2c pin).run (es.map Prod.snd)
      = ⟨es.map Prod.fst, some (readValueBlocking (outcomeOf i2c (es.map Prod.snd)), [])⟩ := by
  have hne : es ≠ [] := by
    rintro rfl
    cases hpath
  have hrun := hpath.run_eq []
  rw [List.append_nil, Espp.Ads1x15.run_finished] at hrun
  rw [run_readValueOverBus hinit, hrun, outcomeOf, ← Espp.Ads1x15.outcome_of_path hpath hne]
  simp [Progress.after, Progress.map]

/-- A reading that returned, by the replies it used. -/
theorem exists_used {i2c : I2c} {pin : Fin 4} {rs rest : List Reply} {qs : List Transfer} {value : Int}
    (h : (readValueOverBus i2c pin).run rs = ⟨qs, some (value, rest)⟩) :
    ∃ used, rs = used ++ rest ∧ used.length = qs.length ∧
      (readValueOverBus i2c pin).run used = ⟨qs, some (value, [])⟩ ∧
      value = readValueBlocking (outcomeOf i2c used) := by
  cases hinit : i2c.initialized with
  | false =>
      rw [run_readValueOverBus_of_not_initialized hinit] at h
      cases h
      exact ⟨[], rfl, rfl, run_readValueOverBus_of_not_initialized hinit pin [], rfl⟩
  | true =>
      rw [run_readValueOverBus hinit] at h
      obtain ⟨outcome, hrun, rfl⟩ := Progress.eq_of_map h
      obtain ⟨es, phase, hpath, hdone, rfl, rfl⟩ := Machine.path_of_run hrun
      have hphase : phase = .finished outcome := by
        cases phase <;> cases hdone
        rfl
      subst hphase
      have hpart := run_of_path hinit hpath
      have hne : es ≠ [] := by
        rintro rfl
        cases hpath
      have hvalue : readValueBlocking outcome
          = readValueBlocking (outcomeOf i2c (es.map Prod.snd)) := by
        rw [outcomeOf, ← Espp.Ads1x15.outcome_of_path hpath hne]
      exact ⟨es.map Prod.snd, rfl, by simp, by rw [hpart, hvalue], hvalue⟩

/-- **The driver refines the conversion that the sensors are modelled on.** Whatever the bus replies, a
    reading that returns has used one reply for each of its transfers, by themselves enough for it, and
    returns the value of the outcome they stand for: the code in the last one, or nothing if one of them
    failed. -/
theorem readValueOverBus_refines {i2c : I2c} {pin : Fin 4} {rs rest : List Reply} {qs : List Transfer}
    {value : Int} (h : (readValueOverBus i2c pin).run rs = ⟨qs, some (value, rest)⟩) :
    ∃ used, rs = used ++ rest ∧ used.length = qs.length ∧
      (readValueOverBus i2c pin).run used = ⟨qs, some (value, [])⟩ ∧
      value = readValueBlocking (outcomeOf i2c used) :=
  exists_used h

/-- The replies to a reading: the converter is not busy when first asked, and sends code 4096. -/
def answered : List Reply :=
  [.ok fun _ => 0, .ok fun _ => 0, .ok fun _ => 0, .ok fun _ => 0, .ok fun _ => 0x80, .ok fun _ => 0,
    .ok fun i => if i = 0 then 0x10 else 0]

theorem run_answered : (readValueOverBus initializedBus 0).run answered
    = ⟨(ads initializedBus).script 0 1,
        some (readValueBlocking (some ⟨4096, by decide, by decide⟩), [])⟩ :=
  (run_readValueOverBus initialized_initializedBus 0 answered).trans rfl

theorem readValueOverBus_refines_answered :
    ∃ used, answered = used ++ [] ∧ used.length = ((ads initializedBus).script 0 1).length ∧
      (readValueOverBus initializedBus 0).run used
        = ⟨(ads initializedBus).script 0 1,
            some (readValueBlocking (some ⟨4096, by decide, by decide⟩), [])⟩ ∧
      readValueBlocking (some ⟨4096, by decide, by decide⟩)
        = readValueBlocking (outcomeOf initializedBus used) :=
  readValueOverBus_refines run_answered

/-! ## What it puts on the bus -/

/-- **The transfers of a reading**, whatever the bus replies: up to some point those of the script, with
    some number of polls; none after one that failed; and the result is asked for right after the
    converter has said that it is not busy. -/
theorem readValueOverBus_transfers (i2c : I2c) (pin : Fin 4) (rs : List Reply) :
    (∃ polls, ((readValueOverBus i2c pin).run rs).requests <+: (ads i2c).script pin polls) ∧
    (∀ i : ℕ, rs[i]? = some .error → ((readValueOverBus i2c pin).run rs).requests.length ≤ i + 1) ∧
    ∀ i : ℕ, ((readValueOverBus i2c pin).run rs).requests[i]?
        = some (.write (ads i2c).base.address [Espp.Ads1x15.pointerConvert]) →
      ∃ j byte, i = j + 1 ∧ rs[j]? = some (.ok byte) ∧ Espp.Ads1x15.notBusy byte := by
  cases hinit : i2c.initialized with
  | false =>
      rw [run_readValueOverBus_of_not_initialized hinit]
      exact ⟨⟨0, List.nil_prefix⟩, fun _ _ => Nat.zero_le _, nofun⟩
  | true =>
      rw [run_readValueOverBus hinit]
      refine ⟨Espp.Ads1x15.requests_prefix .configure rs, fun i hi => ?_, fun i hi => ?_⟩
      · exact Espp.Ads1x15.length_requests_of_error hi
      · rcases Espp.Ads1x15.notBusy_of_fetch hi with ⟨-, hphase⟩ | hbusy
        · cases hphase
        · exact hbusy

/-! ## When it returns -/

/-- **When a reading returns**, on an endless sequence of replies: the bus is not up, a transfer fails,
    or some poll finds the converter not busy. A converter that stays busy keeps it waiting for ever. -/
theorem readValueOverBus_returns_iff (i2c : I2c) (pin : Fin 4) (replies : ℕ → Reply) :
    (∃ n, ((readValueOverBus i2c pin).run ((List.range n).map replies)).result ≠ none)
      ↔ i2c.initialized = false ∨ (∃ i, replies i = .error) ∨
        ∃ k byte, replies (2 * k + 4) = .ok byte ∧ Espp.Ads1x15.notBusy byte := by
  cases hinit : i2c.initialized with
  | false =>
      simp only [true_or, iff_true]
      exact ⟨0, by rw [run_readValueOverBus_of_not_initialized hinit]; nofun⟩
  | true =>
      simp only [Bool.true_eq_false, false_or]
      simp only [run_readValueOverBus hinit, Progress.map, ne_eq, Option.map_eq_none_iff]
      exact Espp.Ads1x15.ended_iff replies

end CroniotWatering.ADS1115Controller
