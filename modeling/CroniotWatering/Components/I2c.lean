import CroniotWatering.Library.Dialogue

set_option autoImplicit false

/-! # The I2C bus

`components/i2c/include/i2c.hpp`. A transfer is one call of the ESP-IDF driver; the source holds a mutex
around each, so transfers do not overlap. Log lines are left out. -/

namespace CroniotWatering.Espp

/-- One transfer. -/
inductive Transfer where
  | write (devAddr : UInt8) (data : List UInt8)
  | read (devAddr : UInt8) (dataLen : ℕ)
  | writeRead (devAddr : UInt8) (writeData : List UInt8) (readSize : ℕ)
deriving DecidableEq

/-- What comes of it: anything but `ESP_OK`, or success with the bytes the device sends, of which the
    transfer takes as many as it reads. -/
inductive Reply where
  | error
  | ok (byte : ℕ → UInt8)

/-- The bytes of a buffer, if the transfer filled it. -/
abbrev Buffer (length : ℕ) := Option (Vector UInt8 length)

namespace Reply

def isOk : Reply → Bool
  | .error => false
  | .ok _ => true

def buffer (length : ℕ) : Reply → Buffer length
  | .error => none
  | .ok byte => some (Vector.ofFn fun i => byte i)

end Reply

/-- Code that uses the bus. -/
abbrev BusM := Dialogue Transfer Reply

/-- The bus driver, by what its functions check. -/
structure I2c where
  initialized : Bool

namespace I2c

/-- `init`, by whether `i2c_param_config` and `i2c_driver_install` return `ESP_OK`. -/
def init (paramConfigOk driverInstallOk : Bool) : I2c :=
  if paramConfigOk then if driverInstallOk then ⟨true⟩ else ⟨false⟩ else ⟨false⟩

def write (i2c : I2c) (devAddr : UInt8) (data : List UInt8) : BusM Bool :=
  if i2c.initialized then do
    let err ← Dialogue.ask (.write devAddr data)
    pure err.isOk
  else pure false

/-- `none` is the source's `false`. -/
def read (i2c : I2c) (devAddr : UInt8) (dataLen : ℕ) : BusM (Buffer dataLen) :=
  if i2c.initialized then do
    let err ← Dialogue.ask (.read devAddr dataLen)
    pure (err.buffer dataLen)
  else pure none

def writeRead (i2c : I2c) (devAddr : UInt8) (writeData : List UInt8) (readSize : ℕ) :
    BusM (Buffer readSize) :=
  if i2c.initialized then do
    let err ← Dialogue.ask (.writeRead devAddr writeData readSize)
    pure (err.buffer readSize)
  else pure none

def readAtRegister (i2c : I2c) (devAddr regAddr : UInt8) (dataLen : ℕ) : BusM (Buffer dataLen) :=
  i2c.writeRead devAddr [regAddr] dataLen

end I2c

end CroniotWatering.Espp
