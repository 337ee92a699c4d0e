import CroniotWatering.Components.BasePeripheral
import Mathlib.Logic.Function.Basic

set_option autoImplicit false

/-! # Registers written and read back

A device with 16-bit registers behind a pointer, and a peripheral on the bus in each of the ways the
driver can be given its functions. What a register holds is what was written to it last, whichever of
the three ways the driver reads it. -/

namespace CroniotWatering.Espp

/-- Registers behind a pointer. -/
structure RegisterFile where
  pointer : UInt8
  registers : UInt8 → UInt16

namespace RegisterFile

/-- The bytes of a register, most significant first. -/
def Sends (value : UInt16) (byte : ℕ → UInt8) : Prop :=
  BasePeripheral.ofBigEndian (byte 0) (byte 1) = value

/-- What a successful transfer does. -/
def Effect (d : RegisterFile) (q : Transfer) (byte : ℕ → UInt8) (d' : RegisterFile) : Prop :=
  match q with
  | .write _ [reg] => d' = { d with pointer := reg }
  | .write _ [reg, hi, lo] =>
      d' = ⟨reg, Function.update d.registers reg (BasePeripheral.ofBigEndian hi lo)⟩
  | .read _ 2 => d' = d ∧ Sends (d.registers d.pointer) byte
  | .writeRead _ [reg] 2 => d' = { d with pointer := reg } ∧ Sends (d.registers reg) byte
  | _ => True

/-- A transfer that fails may leave the device in any state. -/
def reacts (d : RegisterFile) (q : Transfer) : Reply → RegisterFile → Prop
  | .error, _ => True
  | .ok byte, d' => d.Effect q byte d'

end RegisterFile

namespace BasePeripheral

/-- The driver has a write function, and reads registers by one of the three means it can be given. -/
inductive OnBus (i2c : I2c) (address : UInt8) : BasePeripheral → Prop
  | readRegister (read : Option (UInt8 → (length : ℕ) → BusM (Buffer length)))
      (writeThenRead : Option (UInt8 → List UInt8 → (length : ℕ) → BusM (Buffer length))) :
      OnBus i2c address ⟨address, some i2c.write, read, some i2c.readAtRegister, writeThenRead⟩
  | writeThenRead (read : Option (UInt8 → (length : ℕ) → BusM (Buffer length))) :
      OnBus i2c address ⟨address, some i2c.write, read, none, some i2c.writeRead⟩
  | separate : OnBus i2c address (.overI2c i2c address)

variable {i2c : I2c} {address : UInt8} {base : BasePeripheral} {d d' : RegisterFile}

open Dialogue

/-- All three write in one transfer. -/
theorem OnBus.writeU16_eq (hinit : i2c.initialized = true) (hbase : OnBus i2c address base)
    (reg : UInt8) (data : UInt16) (ec : ErrorCode) :
    base.writeU16ToRegister reg data ec
      = ask (.write address (reg :: bigEndian data)) >>= fun err => pure (ioErrorUnless err.isOk) := by
  cases hbase <;>
    simp [writeU16ToRegister, writeData, putRegisterBytes, overI2c, I2c.write, hinit]

/-- Two of them read in one transfer. -/
theorem OnBus.readU16_eq (hinit : i2c.initialized = true) (hbase : OnBus i2c address base)
    (reg : UInt8) :
    base = .overI2c i2c address ∨
      base.readU16FromRegister reg none
        = ask (.writeRead address [reg] 2) >>= fun
            | .error => pure (0, some .ioError)
            | .ok byte => pure (ofBigEndian (byte 0) (byte 1), none) := by
  cases hbase with
  | separate => exact Or.inl rfl
  | _ =>
      right
      simp only [readU16FromRegister, readFromRegister, I2c.readAtRegister, I2c.writeRead,
        putRegisterBytes, hinit, if_true, bind_assoc, pure_bind]
      congr 1
      funext err
      cases err <;> rfl

/-- A write that reports no error has written the register, and no other. -/
theorem registers_of_write (hinit : i2c.initialized = true) (hbase : OnBus i2c address base)
    {reg : UInt8} {data : UInt16} {ec : ErrorCode}
    (h : Yields RegisterFile.reacts (base.writeU16ToRegister reg data ec) d none d') :
    d'.registers = Function.update d.registers reg data := by
  rw [hbase.writeU16_eq hinit] at h
  obtain ⟨err, d₁, hreact, h⟩ := h.ask_bind_inv
  obtain ⟨herr, rfl⟩ := h.pure_inv
  cases err with
  | error => cases herr
  | ok byte =>
      have heffect : d' = ⟨reg, Function.update d.registers reg (ofBigEndian _ _)⟩ := hreact
      rw [heffect, @ofBigEndian_of_bigEndian data _ _ rfl]

/-- A read that reports no error returns what the register holds, and leaves all registers alone. -/
theorem register_of_read (hinit : i2c.initialized = true) (hbase : OnBus i2c address base)
    {reg : UInt8} {val : UInt16}
    (h : Yields RegisterFile.reacts (base.readU16FromRegister reg none) d (val, none) d') :
    val = d.registers reg ∧ d'.registers = d.registers := by
  rcases hbase.readU16_eq hinit reg with rfl | heq
  · have hwired : (overI2c i2c address).Wired := ⟨i2c, hinit, rfl⟩
    rw [hwired.readU16_eq] at h
    obtain ⟨err, d₁, hselect, h⟩ := h.ask_bind_inv
    cases err with
    | error => cases h.pure_inv.1
    | ok _ =>
        obtain ⟨err, d₂, hread, h⟩ := h.ask_bind_inv
        cases err with
        | error => cases h.pure_inv.1
        | ok byte =>
            obtain ⟨hval, rfl⟩ := h.pure_inv
            cases hval
            obtain rfl : d₁ = { d with pointer := reg } := hselect
            obtain ⟨rfl, hsends⟩ := hread
            exact ⟨hsends, rfl⟩
  · rw [heq] at h
    obtain ⟨err, d₁, hread, h⟩ := h.ask_bind_inv
    cases err with
    | error => cases h.pure_inv.1
    | ok byte =>
        obtain ⟨hval, rfl⟩ := h.pure_inv
        cases hval
        obtain ⟨rfl, hsends⟩ := hread
        exact ⟨hsends, rfl⟩

/-- **What a register holds is what was written to it.** After a write that reports no error, a read that
    reports none returns the data from the register that was written, and from every other one what was
    there before; in each of the three ways to read. -/
theorem readU16_after_writeU16 (hinit : i2c.initialized = true) (hbase : OnBus i2c address base)
    {reg reg' : UInt8} {data val : UInt16} {ec : ErrorCode} {d₁ : RegisterFile}
    (hwrite : Yields RegisterFile.reacts (base.writeU16ToRegister reg data ec) d none d₁)
    (hread : Yields RegisterFile.reacts (base.readU16FromRegister reg' none) d₁ (val, none) d') :
    val = if reg' = reg then data else d.registers reg' := by
  rw [(register_of_read hinit hbase hread).1, registers_of_write hinit hbase hwrite,
    Function.update_apply]

/-- A device whose registers are all 0. -/
def zeroed : RegisterFile := ⟨0, fun _ => 0⟩

/-- The same, with the register after the first written. -/
def oneWritten : RegisterFile := ⟨1, Function.update (fun _ => 0) 1 0x1234⟩

/-- The exchanges are those of a write to the register 1, and of reads of the registers 1 and 2. -/
theorem readU16_after_writeU16_separate :
    Yields RegisterFile.reacts ((overI2c ⟨true⟩ 0x48).writeU16ToRegister 1 0x1234 none)
      zeroed none oneWritten ∧
    (∃ val, Yields RegisterFile.reacts ((overI2c ⟨true⟩ 0x48).readU16FromRegister 1 none)
        oneWritten (val, none) oneWritten ∧
      val = if (1 : UInt8) = 1 then 0x1234 else zeroed.registers 1) ∧
    ∃ val, Yields RegisterFile.reacts ((overI2c ⟨true⟩ 0x48).readU16FromRegister 2 none)
        oneWritten (val, none) { oneWritten with pointer := 2 } ∧
      val = if (2 : UInt8) = 1 then 0x1234 else zeroed.registers 2 := by
  have hwrite : Yields RegisterFile.reacts
      ((overI2c ⟨true⟩ 0x48).writeU16ToRegister 1 0x1234 none) zeroed none oneWritten :=
    ⟨[(.write 0x48 (1 :: bigEndian 0x1234), .ok fun _ => 0)], rfl, .step rfl (.refl _)⟩
  have hread : Yields RegisterFile.reacts
      ((overI2c ⟨true⟩ 0x48).readU16FromRegister 1 none) oneWritten (0x1234, none) oneWritten :=
    ⟨[(.write 0x48 [1], .ok fun _ => 0), (.read 0x48 2, .ok fun i => if i = 0 then 0x12 else 0x34)],
      rfl, .step rfl (.step ⟨rfl, rfl⟩ (.refl _))⟩
  have hread' : Yields RegisterFile.reacts ((overI2c ⟨true⟩ 0x48).readU16FromRegister 2 none)
      oneWritten (0, none) { oneWritten with pointer := 2 } :=
    ⟨[(.write 0x48 [2], .ok fun _ => 0), (.read 0x48 2, .ok fun _ => 0)],
      rfl, .step rfl (.step ⟨rfl, rfl⟩ (.refl _))⟩
  exact ⟨hwrite, ⟨_, hread, readU16_after_writeU16 rfl .separate hwrite hread⟩,
    ⟨_, hread', readU16_after_writeU16 rfl .separate hwrite hread'⟩⟩

end BasePeripheral

end CroniotWatering.Espp
