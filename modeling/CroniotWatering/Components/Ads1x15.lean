import CroniotWatering.Components.BasePeripheral
import CroniotWatering.Sensors.ADS1115Controller

set_option autoImplicit false

/-! # The driver of the converter

`components/ads1x15`: a single-shot conversion of one channel. The mutex that `sample_raw` holds from its
first transfer to its last is not part of this module. The loop that waits for the conversion has no
bound in the source and none here. -/

namespace CroniotWatering.Espp

inductive Ads1x15.Ads1015Rate where
  | sps128
  | sps250
  | sps490
  | sps920
  | sps1600
  | sps2400
  | sps3300

def Ads1x15.Ads1015Rate.bits : Ads1x15.Ads1015Rate → UInt16
  | .sps128 => 0x0000
  | .sps250 => 0x0020
  | .sps490 => 0x0040
  | .sps920 => 0x0060
  | .sps1600 => 0x0080
  | .sps2400 => 0x00A0
  | .sps3300 => 0x00C0

inductive Ads1x15.Ads1115Rate where
  | sps8
  | sps16
  | sps32
  | sps64
  | sps128
  | sps250
  | sps475
  | sps860

def Ads1x15.Ads1115Rate.bits : Ads1x15.Ads1115Rate → UInt16
  | .sps8 => 0x0000
  | .sps16 => 0x0020
  | .sps32 => 0x0040
  | .sps64 => 0x0060
  | .sps128 => 0x0080
  | .sps250 => 0x00A0
  | .sps475 => 0x00C0
  | .sps860 => 0x00E0

/-- Which of the two constructors made the object, and the rate it was given. -/
inductive Ads1x15.Chip where
  | ads1015 (sampleRate : Ads1x15.Ads1015Rate)
  | ads1115 (sampleRate : Ads1x15.Ads1115Rate)

structure Ads1x15 where
  base : BasePeripheral
  gain : Ads1x15.Gain
  chip : Ads1x15.Chip

namespace Ads1x15

/-- `gain_`, as its bits of the configuration register. -/
def gainBits : Ads1x15.Gain → UInt16
  | .twothirds => 0x0000
  | .one => 0x0200
  | .two => 0x0400
  | .four => 0x0600
  | .eight => 0x0800
  | .sixteen => 0x0A00

/-- `rate_`. -/
def rate (ads : Ads1x15) : UInt16 :=
  match ads.chip with
  | .ads1015 sampleRate => sampleRate.bits
  | .ads1115 sampleRate => sampleRate.bits

/-- `bit_shift_`. -/
def bitShift (ads : Ads1x15) : UInt16 :=
  match ads.chip with
  | .ads1015 _ => 4
  | .ads1115 _ => 0

def pointerConvert : UInt8 := 0x00
def pointerConfig : UInt8 := 0x01
def pointerLowthresh : UInt8 := 0x02
def pointerHithresh : UInt8 := 0x03

def regConfigOsSingle : UInt16 := 0x8000
def regConfigOsNotbusy : UInt16 := 0x8000
def regConfigModeSingle : UInt16 := 0x0100

/-- `MUX_BY_CHANNEL`; reading it anywhere else is undefined. -/
def muxByChannel : Fin 4 → UInt16
  | 0 => 0x4000
  | 1 => 0x5000
  | 2 => 0x6000
  | 3 => 0x7000

/-- What `sample_raw` writes to the configuration register. -/
def configWord (ads : Ads1x15) (channel : Fin 4) : UInt16 :=
  regConfigModeSingle ||| gainBits ads.gain ||| ads.rate ||| muxByChannel channel ||| regConfigOsSingle

def conversionComplete (ads : Ads1x15) (ec : ErrorCode) : BusM (Bool × ErrorCode) := do
  let (val, ec) ← ads.base.readU16FromRegister pointerConfig ec
  if ec.isSome then pure (false, ec)
  else pure (val &&& regConfigOsNotbusy = regConfigOsNotbusy, ec)

/-- The condition of the loop, `!conversion_complete(ec) && !ec`; the body only sleeps. -/
def waitStep (ads : Ads1x15) (ec : ErrorCode) : BusM (ErrorCode ⊕ ErrorCode) := do
  let (complete, ec) ← ads.conversionComplete ec
  if !complete && ec.isNone then pure (.inl ec) else pure (.inr ec)

/-- The loop. -/
def waitForConversion (ads : Ads1x15) (ec : ErrorCode) : BusM ErrorCode :=
  Dialogue.iterate ads.waitStep ec

/-- `(int16_t)val`. -/
def toInt16 (val : UInt16) : Ads1x15.RawCode where
  val := val.toBitVec.toInt
  ge := BitVec.le_toInt val.toBitVec
  le := by
    have h := BitVec.toInt_lt (x := val.toBitVec)
    omega

/-- The code the conversion register stands for: shifted, and its sign extended where it was. -/
def decode (ads : Ads1x15) (register : UInt16) : Ads1x15.RawCode :=
  let val := register >>> ads.bitShift
  if 0 < ads.bitShift then
    if 0x07FF < val then toInt16 (val ||| 0xF000) else toInt16 val
  else toInt16 val

def sampleRaw (ads : Ads1x15) (channel : Fin 4) (ec : ErrorCode) :
    BusM (Ads1x15.RawCode × ErrorCode) := do
  let ec ← ads.base.writeU16ToRegister pointerConfig (ads.configWord channel) ec
  if ec.isSome then pure (toInt16 0, ec)
  else do
    let ec ← ads.base.writeU16ToRegister pointerHithresh 0x8000 ec
    if ec.isSome then pure (toInt16 0, ec)
    else do
      let ec ← ads.base.writeU16ToRegister pointerLowthresh 0x0000 ec
      if ec.isSome then pure (toInt16 0, ec)
      else do
        let ec ← ads.waitForConversion ec
        if ec.isSome then pure (toInt16 0, ec)
        else do
          let (register, ec) ← ads.base.readU16FromRegister pointerConvert ec
          if ec.isSome then pure (toInt16 0, ec)
          else pure (ads.decode register, ec)

/-- `raw_to_mv`. -/
def rawToMv (ads : Ads1x15) (raw : Ads1x15.RawCode) : ℚ :=
  CroniotWatering.Ads1x15.rawToMv ads.gain ads.bitShift.toNat raw

def sampleMv (ads : Ads1x15) (channel : Fin 4) (ec : ErrorCode) : BusM (ℚ × ErrorCode) := do
  let (raw, ec) ← ads.sampleRaw channel ec
  if ec.isSome then pure (0, ec) else pure (ads.rawToMv raw, ec)

end Ads1x15

end CroniotWatering.Espp
