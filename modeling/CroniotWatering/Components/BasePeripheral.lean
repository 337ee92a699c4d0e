import CroniotWatering.Components.I2c

set_option autoImplicit false

/-! # Peripherals with registers

`managed_components/espp__base_peripheral/include/base_peripheral.hpp` at its default template
arguments: 8-bit register addresses, an address on the bus, big-endian data. A function that takes an
error code by reference takes it and returns it. Log lines and the delay between a separate write and
read are left out. -/

namespace CroniotWatering.Espp

inductive Errc where
  | ioError
  | operationNotSupported
deriving DecidableEq

/-- `std::error_code`; `none` is a clear one. -/
abbrev ErrorCode := Option Errc

/-- `Config`; an empty `std::function` is `none`. -/
structure BasePeripheral where
  address : UInt8
  write : Option (UInt8 → List UInt8 → BusM Bool)
  read : Option (UInt8 → (length : ℕ) → BusM (Buffer length))
  readRegister : Option (UInt8 → UInt8 → (length : ℕ) → BusM (Buffer length))
  writeThenRead : Option (UInt8 → List UInt8 → (length : ℕ) → BusM (Buffer length))

namespace BasePeripheral

/-- The error code a call that sets or clears it leaves. -/
def ioErrorUnless (ok : Bool) : ErrorCode := if ok then none else some .ioError

/-- `write`. -/
def writeData (base : BasePeripheral) (data : List UInt8) (_ec : ErrorCode) : BusM ErrorCode :=
  match base.write with
  | some write => do
      let ok ← write base.address data
      pure (ioErrorUnless ok)
  | none => pure (some .operationNotSupported)

/-- `put_register_bytes`. -/
def putRegisterBytes (registerAddress : UInt8) : List UInt8 := [registerAddress]

/-- `read_register`. The separate write and read do not clear the error code. -/
def readFromRegister (base : BasePeripheral) (regAddr : UInt8) (length : ℕ) (ec : ErrorCode) :
    BusM (Buffer length × ErrorCode) :=
  match base.readRegister with
  | some readRegister => do
      let data ← readRegister base.address regAddr length
      pure (data, ioErrorUnless data.isSome)
  | none =>
      match base.writeThenRead with
      | some writeThenRead => do
          let data ← writeThenRead base.address (putRegisterBytes regAddr) length
          pure (data, ioErrorUnless data.isSome)
      | none =>
          match base.write, base.read with
          | some write, some read => do
              if ← write base.address (putRegisterBytes regAddr) then
                match ← read base.address length with
                | some data => pure (some data, ec)
                | none => pure (none, some .ioError)
              else pure (none, some .ioError)
          | _, _ => pure (none, some .operationNotSupported)

/-- The two bytes a 16-bit value is sent as. -/
def bigEndian (data : UInt16) : List UInt8 :=
  [((data >>> 8) &&& 0xff).toUInt8, (data &&& 0xff).toUInt8]

/-- `(data[0] << 8) | data[1]`. -/
def ofBigEndian (hi lo : UInt8) : UInt16 := (hi.toUInt16 <<< 8) ||| lo.toUInt16

def writeU16ToRegister (base : BasePeripheral) (regAddr : UInt8) (data : UInt16) (ec : ErrorCode) :
    BusM ErrorCode :=
  base.writeData (putRegisterBytes regAddr ++ bigEndian data) ec

/-- 0 where the source returns early. -/
def readU16FromRegister (base : BasePeripheral) (registerAddress : UInt8) (ec : ErrorCode) :
    BusM (UInt16 × ErrorCode) := do
  let (data, ec) ← base.readFromRegister registerAddress 2 ec
  match ec, data with
  | none, some data => pure (ofBigEndian (data.get 0) (data.get 1), none)
  | ec, _ => pure (0, ec)

/-! ## The two bytes of a value -/

theorem toNat_ofBigEndian (hi lo : UInt8) : (ofBigEndian hi lo).toNat = 256 * hi.toNat + lo.toNat := by
  have hhi := hi.toNat_lt
  have hlo := lo.toNat_lt
  have hshift : hi.toNat <<< 8 % 65536 = hi.toNat <<< 8 := by
    rw [Nat.shiftLeft_eq]
    omega
  have hor := Nat.shiftLeft_add_eq_or_of_lt hlo hi.toNat
  simp only [ofBigEndian, UInt16.toNat_or, UInt16.toNat_shiftLeft, UInt8.toNat_toUInt16]
  show hi.toNat <<< 8 % 65536 ||| lo.toNat = _
  rw [hshift, ← hor, Nat.shiftLeft_eq]
  omega

theorem bigEndian_eq (data : UInt16) :
    bigEndian data = [UInt8.ofNat (data.toNat / 256), UInt8.ofNat (data.toNat % 256)] := by
  have hand : ∀ n : ℕ, n &&& 255 = n % 256 := fun n => Nat.and_two_pow_sub_one_eq_mod n 8
  have hlt := data.toNat_lt
  have hdiv : data.toNat / 256 % 256 = data.toNat / 256 := by omega
  unfold bigEndian
  congr 1
  · apply UInt8.toNat_inj.1
    simp [hand, Nat.shiftRight_eq_div_pow]
  · congr 1
    apply UInt8.toNat_inj.1
    simp [hand]

/-- **What is read back is what was sent.** -/
theorem ofBigEndian_of_bigEndian {data : UInt16} {hi lo : UInt8} (h : bigEndian data = [hi, lo]) :
    ofBigEndian hi lo = data := by
  rw [bigEndian_eq] at h
  cases h
  have hlt := data.toNat_lt
  apply UInt16.toNat_inj.1
  rw [toNat_ofBigEndian, UInt8.toNat_ofNat', UInt8.toNat_ofNat']
  omega

/-! ## Over the bus -/

/-- A peripheral that has only a write and a read function, those of the bus. -/
def overI2c (i2c : I2c) (address : UInt8) : BasePeripheral where
  address := address
  write := some i2c.write
  read := some i2c.read
  readRegister := none
  writeThenRead := none

/-- Such a peripheral, on a bus that is up. -/
def Wired (base : BasePeripheral) : Prop :=
  ∃ i2c : I2c, i2c.initialized = true ∧ base = .overI2c i2c base.address

variable {base : BasePeripheral}

theorem Wired.writeU16_eq (hbase : base.Wired) (regAddr : UInt8) (data : UInt16) (ec : ErrorCode) :
    base.writeU16ToRegister regAddr data ec
      = Dialogue.ask (.write base.address (regAddr :: bigEndian data))
        >>= fun err => pure (ioErrorUnless err.isOk) := by
  obtain ⟨i2c, hinit, hbase⟩ := hbase
  rw [hbase]
  simp [writeU16ToRegister, writeData, overI2c, putRegisterBytes, I2c.write, hinit]

theorem Wired.readU16_eq (hbase : base.Wired) (regAddr : UInt8) :
    base.readU16FromRegister regAddr none
      = Dialogue.ask (.write base.address [regAddr]) >>= fun
          | .error => pure (0, some .ioError)
          | .ok _ => Dialogue.ask (.read base.address 2) >>= fun
              | .error => pure (0, some .ioError)
              | .ok byte => pure (ofBigEndian (byte 0) (byte 1), none) := by
  obtain ⟨i2c, hinit, hbase⟩ := hbase
  rw [hbase]
  simp only [readU16FromRegister, readFromRegister, overI2c, putRegisterBytes, I2c.write, I2c.read,
    hinit]
  simp only [if_true, bind_assoc, pure_bind]
  congr 1
  funext err
  cases err with
  | error => rfl
  | ok _ =>
      simp only [Reply.isOk, if_true, bind_assoc]
      congr 1
      funext err
      cases err <;> rfl

end BasePeripheral

end CroniotWatering.Espp
