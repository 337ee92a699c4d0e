import CroniotWatering.Components.Ads1x15.Sample

set_option autoImplicit false

/-! # The converter

What the driver takes the chip to be: four registers behind a pointer, and single-shot conversions that a
write to the configuration register starts, that run on their own, and that the busy bit of the same
register reports. Where the driver says nothing (a write to the configuration register during a conversion, a
transfer that fails) anything may follow. -/

namespace CroniotWatering.Espp.Ads1x15

/-- The input that a configuration selects: its multiplexer bits. -/
def muxBits (config : UInt16) : UInt16 := config &&& 0x7000

structure Converter where
  pointer : UInt8
  /-- The input of the conversion in progress. -/
  converting : Option UInt16
  /-- The input of the latest conversion, and its result. -/
  converted : UInt16 × UInt16

namespace Converter

/-- No conversion is in progress. -/
def Idle (d : Converter) : Prop := d.converting = none

/-- A conversion in progress may complete, with any result. -/
inductive Passes : Converter → Converter → Prop
  | refl (d : Converter) : Passes d d
  | completes {d : Converter} {input : UInt16} (result : UInt16) :
      d.converting = some input →
      Passes d { d with converting := none, converted := (input, result) }

/-- What a write of a register does; `none` where anything may follow. -/
def writeRegister (d : Converter) (reg : UInt8) (value : UInt16) : Option Converter :=
  if reg = pointerConfig ∧ value &&& regConfigOsSingle = regConfigOsSingle then
    if d.converting = none then
      some { d with pointer := reg, converting := some (muxBits value) }
    else none
  else some { d with pointer := reg }

/-- What a successful transfer does. -/
def Effect (d : Converter) (q : Transfer) (byte : ℕ → UInt8) (d' : Converter) : Prop :=
  match q with
  | .write _ [reg] => d' = { d with pointer := reg }
  | .write _ [reg, hi, lo] =>
      ∀ d₁, d.writeRegister reg (BasePeripheral.ofBigEndian hi lo) = some d₁ → d' = d₁
  | .read _ _ =>
      d' = d ∧ (d.pointer = pointerConfig → (notBusy byte ↔ d.Idle)) ∧
        (d.pointer = pointerConvert → BasePeripheral.ofBigEndian (byte 0) (byte 1) = d.converted.2)
  | _ => True

/-- One transfer, before which time may pass. -/
def reacts (d : Converter) (q : Transfer) : Reply → Converter → Prop
  | .error, _ => True
  | .ok byte, d' => ∃ d₁, Passes d d₁ ∧ d₁.Effect q byte d'

end Converter

/-! ## The configuration -/

theorem or_and (x y z : UInt16) : (x ||| y) &&& z = (x &&& z) ||| (y &&& z) := by
  simp only [← UInt16.toBitVec_inj, UInt16.toBitVec_and, UInt16.toBitVec_or,
    BitVec.and_or_distrib_right]

/-- The gain and the rate stay clear of the multiplexer's bits and of the start bit. -/
theorem gain_and (gain : Ads1x15.Gain) :
    gainBits gain &&& 0x7000 = 0 ∧ gainBits gain &&& 0x8000 = 0 := by
  cases gain <;> exact ⟨rfl, rfl⟩

theorem rate_and (ads : Ads1x15) : ads.rate &&& 0x7000 = 0 ∧ ads.rate &&& 0x8000 = 0 := by
  unfold rate
  cases ads.chip with
  | ads1015 sampleRate => cases sampleRate <;> exact ⟨rfl, rfl⟩
  | ads1115 sampleRate => cases sampleRate <;> exact ⟨rfl, rfl⟩

theorem mux_and (channel : Fin 4) :
    muxByChannel channel &&& 0x7000 = muxByChannel channel ∧ muxByChannel channel &&& 0x8000 = 0 := by
  decide +revert

/-- The configuration that a sample writes selects its channel and starts a conversion. -/
theorem configWord_fields (ads : Ads1x15) (channel : Fin 4) :
    muxBits (ads.configWord channel) = muxByChannel channel ∧
      ads.configWord channel &&& regConfigOsSingle = regConfigOsSingle := by
  constructor
  · simp only [muxBits, configWord, or_and, (gain_and ads.gain).1, (rate_and ads).1,
      (mux_and channel).1]
    decide +revert
  · simp only [regConfigOsSingle, configWord, or_and, (gain_and ads.gain).2, (rate_and ads).2,
      (mux_and channel).2]
    decide

/-- Different channels select different inputs. -/
theorem muxByChannel_injective {c c' : Fin 4} (h : muxByChannel c = muxByChannel c') : c = c' := by
  decide +revert

/-! ## A sample against the converter -/

namespace Converter

variable {d d' : Converter}

/-- A conversion of this input is in progress, or was the latest. -/
def Started (input : UInt16) (d : Converter) : Prop :=
  d.converting = some input ∨ (d.Idle ∧ d.converted.1 = input)

theorem Passes.pointer_eq (h : Passes d d') : d'.pointer = d.pointer := by
  cases h <;> rfl

theorem Passes.eq_of_idle (h : Passes d d') (hidle : d.Idle) : d' = d := by
  cases h with
  | refl => rfl
  | completes result hconverting =>
      rw [Idle, hconverting] at hidle
      cases hidle

theorem Passes.started {input : UInt16} (h : Passes d d') (hstarted : d.Started input) :
    d'.Started input := by
  cases h with
  | refl => exact hstarted
  | completes result hconverting =>
      rcases hstarted with hin | ⟨hidle, -⟩
      · rw [hconverting] at hin
        cases hin
        exact Or.inr ⟨rfl, rfl⟩
      · rw [Idle, hconverting] at hidle
        cases hidle

/-- Once the converter is idle, a conversion that was started is the latest. -/
theorem Started.own_of_idle {input : UInt16} (h : d.Started input) (hidle : d.Idle) :
    d.converted.1 = input := by
  rcases h with hin | ⟨-, hown⟩
  · rw [Idle, hin] at hidle
    cases hidle
  · exact hown

/-- The configuration of a sample, written to an idle converter, starts the conversion of its channel. -/
theorem writeRegister_configWord (ads : Ads1x15) (channel : Fin 4) (hidle : d.Idle) :
    d.writeRegister pointerConfig (ads.configWord channel)
      = some { d with pointer := pointerConfig, converting := some (muxByChannel channel) } := by
  have hconverting : d.converting = none := hidle
  obtain ⟨hmux, hstart⟩ := configWord_fields ads channel
  rw [writeRegister, if_pos ⟨rfl, hstart⟩, if_pos hconverting, hmux]

/-- A write of a register, by its value. -/
theorem Effect.of_write {address reg : UInt8} {value : UInt16} {byte : ℕ → UInt8}
    (h : d.Effect (.write address (reg :: BasePeripheral.bigEndian value)) byte d') {d₁ : Converter}
    (hwrite : d.writeRegister reg value = some d₁) : d' = d₁ := by
  refine h d₁ ?_
  rwa [@BasePeripheral.ofBigEndian_of_bigEndian value _ _ rfl]

end Converter

namespace Phase

/-- What a sample knows of the converter by its phase, in whatever state it found it. -/
def Knows (ads : Ads1x15) : Phase → Converter → Prop
  | .readConfig, d => d.pointer = pointerConfig
  | .selectConvert, d => d.Idle
  | .readConvert, d => d.Idle ∧ d.pointer = pointerConvert
  | .finished (some code), d => d.Idle ∧ code = ads.decode d.converted.2
  | _, _ => True

/-- What it knows besides, if it found it idle: the conversion is one of its own channel. -/
def OfChannel (channel : Fin 4) : Phase → Converter → Prop
  | .configure, d => d.Idle
  | .setHithresh, d | .setLowthresh, d | .selectConfig, d | .readConfig, d =>
      d.Started (muxByChannel channel)
  | .selectConvert, d | .readConvert, d | .finished (some _), d =>
      d.converted.1 = muxByChannel channel
  | .finished none, _ => True

variable {ads : Ads1x15} {channel : Fin 4} {d d' : Converter} {q : Transfer} {reply : Reply}

/-- **One transfer keeps what is known.** -/
theorem knows_next {phase : Phase} (hq : phase.move ads channel = .ask q) (hknows : phase.Knows ads d)
    (hreact : d.reacts q reply d') : (phase.next ads reply).Knows ads d' := by
  cases reply with
  | error => exact trivial
  | ok byte =>
      obtain ⟨d₁, hpasses, heffect⟩ := hreact
      cases phase with
      | configure | setHithresh | setLowthresh => exact trivial
      | finished outcome => cases hq
      | selectConfig =>
          cases hq
          have hd : d' = { d₁ with pointer := pointerConfig } := heffect
          rw [hd]
          exact rfl
      | readConfig =>
          cases hq
          obtain ⟨rfl, hbusy, -⟩ := heffect
          have hpointer : d'.pointer = pointerConfig := by rw [hpasses.pointer_eq]; exact hknows
          show (if notBusy byte then Phase.selectConvert else .selectConfig).Knows ads d'
          split
          · next hnotBusy => exact (hbusy hpointer).1 hnotBusy
          · exact trivial
      | selectConvert =>
          cases hq
          have hd : d' = { d₁ with pointer := pointerConvert } := heffect
          have hidle : d₁.Idle := by rw [hpasses.eq_of_idle hknows]; exact hknows
          rw [hd]
          exact ⟨hidle, rfl⟩
      | readConvert =>
          cases hq
          obtain ⟨rfl, -, hresult⟩ := heffect
          obtain rfl := hpasses.eq_of_idle hknows.1
          exact ⟨hknows.1, by rw [hresult hknows.2]⟩

/-- **One transfer keeps the conversion the sample's own.** -/
theorem ofChannel_next {phase : Phase} (hq : phase.move ads channel = .ask q)
    (hknows : phase.Knows ads d) (hchannel : phase.OfChannel channel d) (hreact : d.reacts q reply d') :
    (phase.next ads reply).OfChannel channel d' := by
  cases reply with
  | error => exact trivial
  | ok byte =>
      obtain ⟨d₁, hpasses, heffect⟩ := hreact
      cases phase with
      | finished outcome => cases hq
      | configure =>
          cases hq
          obtain rfl := hpasses.eq_of_idle hchannel
          rw [heffect.of_write (Converter.writeRegister_configWord ads channel hchannel)]
          exact Or.inl rfl
      | setHithresh =>
          cases hq
          rw [heffect.of_write (if_neg (by decide))]
          exact hpasses.started hchannel
      | setLowthresh =>
          cases hq
          rw [heffect.of_write (if_neg (by decide))]
          exact hpasses.started hchannel
      | selectConfig =>
          cases hq
          have hd : d' = { d₁ with pointer := pointerConfig } := heffect
          rw [hd]
          exact hpasses.started hchannel
      | readConfig =>
          cases hq
          obtain ⟨rfl, hbusy, -⟩ := heffect
          have hpointer : d'.pointer = pointerConfig := by rw [hpasses.pointer_eq]; exact hknows
          have hstarted : d'.Started (muxByChannel channel) := hpasses.started hchannel
          show (if notBusy byte then Phase.selectConvert else .selectConfig).OfChannel channel d'
          split
          · next hnotBusy => exact hstarted.own_of_idle ((hbusy hpointer).1 hnotBusy)
          · exact hstarted
      | selectConvert =>
          cases hq
          have hd : d' = { d₁ with pointer := pointerConvert } := heffect
          obtain rfl := hpasses.eq_of_idle hknows
          rw [hd]
          exact hchannel
      | readConvert =>
          cases hq
          obtain ⟨rfl, -, -⟩ := heffect
          obtain rfl := hpasses.eq_of_idle hknows.1
          exact hchannel

end Phase

end CroniotWatering.Espp.Ads1x15
