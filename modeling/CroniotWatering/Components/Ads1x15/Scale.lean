import CroniotWatering.Components.Ads1x15

set_option autoImplicit false

/-! # From the conversion register to millivolts

Both chips hold the result left-aligned in a 16-bit register. The driver shifts the 12-bit one down and
extends its sign by hand; what comes out is the register as a signed number, divided by the weight of
the bits shifted out and rounded down. -/

namespace CroniotWatering.Espp.Ads1x15

/-- `(int16_t)val`, by the unsigned value. -/
theorem val_toInt16 (val : UInt16) :
    (toInt16 val).val = if val.toNat < 32768 then (val.toNat : ℤ) else (val.toNat : ℤ) - 65536 := by
  have hcond := BitVec.toInt_eq_toNat_cond val.toBitVec
  simp only [toInt16, hcond, UInt16.toNat_toBitVec]
  split <;> split <;> omega

/-- How many values of the register give the same code. -/
def step (ads : Ads1x15) : ℕ := 2 ^ ads.bitShift.toNat

theorem step_eq (ads : Ads1x15) : ads.step = 1 ∧ ads.bitShift = 0 ∨ ads.step = 16 ∧ ads.bitShift = 4 := by
  obtain ⟨base, gain, chip⟩ := ads
  cases chip with
  | ads1015 sampleRate => exact Or.inr ⟨rfl, rfl⟩
  | ads1115 sampleRate => exact Or.inl ⟨rfl, rfl⟩

/-- Setting the four highest bits of a 12-bit value adds them. -/
theorem toNat_or_high {val : UInt16} (h : val.toNat < 4096) :
    (val ||| 0xF000).toNat = 61440 + val.toNat := by
  have hor := Nat.shiftLeft_add_eq_or_of_lt (i := 12) h 15
  rw [UInt16.toNat_or, Nat.or_comm]
  exact hor.symm

/-- **The code of a register** is its signed value divided by the step, rounded down. -/
theorem val_decode (ads : Ads1x15) (register : UInt16) :
    (ads.decode register).val = (toInt16 register).val / (ads.step : ℤ) := by
  have hlt := register.toNat_lt
  rcases step_eq ads with ⟨hstep, hshift⟩ | ⟨hstep, hshift⟩
  · have hzero : register >>> 0 = register := UInt16.shiftRight_zero
    simp [decode, hshift, hstep]
  · have hval : (register >>> 4).toNat = register.toNat / 16 := by
      simp [Nat.shiftRight_eq_div_pow]
    have hsmall : (register >>> 4).toNat < 4096 := by omega
    have hsign : (0x07FF : UInt16) < register >>> (4 : UInt16) ↔ 32768 ≤ register.toNat := by
      rw [UInt16.lt_iff_toNat_lt, hval]
      show 2047 < register.toNat / 16 ↔ _
      omega
    have hpos : (0 : UInt16) < 4 := by decide
    simp only [decode, hshift, hstep, hpos, if_true, hsign, Nat.cast_ofNat]
    split
    · next hneg =>
        rw [val_toInt16, val_toInt16, toNat_or_high hsmall, hval]
        rw [if_neg (by omega), if_neg (by omega)]
        push_cast
        omega
    · next hneg =>
        rw [val_toInt16, val_toInt16, hval]
        rw [if_pos (by omega), if_pos (by omega)]
        push_cast
        omega

/-! ## Millivolts -/

theorem fsRange_pos (gain : Ads1x15.Gain) : 0 < Ads1x15.fsRange gain := by
  cases gain <;> norm_num [Ads1x15.fsRange]

/-- The voltage of one step of the register. -/
def stepMv (ads : Ads1x15) : ℚ := ads.step * (Ads1x15.fsRange ads.gain / 32768)

theorem stepMv_pos (ads : Ads1x15) : 0 < ads.stepMv := by
  have hrange := fsRange_pos ads.gain
  unfold stepMv step
  positivity

theorem rawToMv_eq (ads : Ads1x15) (raw : Ads1x15.RawCode) : ads.rawToMv raw = raw.val * ads.stepMv := by
  rcases step_eq ads with ⟨hstep, hshift⟩ | ⟨hstep, hshift⟩
  · simp [rawToMv, CroniotWatering.Ads1x15.rawToMv, stepMv, hstep, hshift]
  · have hscale : (32768 >>> (4 : UInt16).toNat : ℕ) = 2048 := by decide
    simp only [rawToMv, CroniotWatering.Ads1x15.rawToMv, stepMv, hstep, hshift, hscale]
    push_cast
    ring

/-- The voltage the register holds. -/
def registerMv (ads : Ads1x15) (register : UInt16) : ℚ :=
  (toInt16 register).val * (Ads1x15.fsRange ads.gain / 32768)

/-- The voltage reported is the one the register holds, rounded down to a multiple of the step, and
    stays within the full scale of the gain. -/
theorem rawToMv_decode_bounds (ads : Ads1x15) (register : UInt16) :
    (ads.rawToMv (ads.decode register) ≤ ads.registerMv register ∧
      ads.registerMv register < ads.rawToMv (ads.decode register) + ads.stepMv) ∧
    -Ads1x15.fsRange ads.gain ≤ ads.rawToMv (ads.decode register) ∧
      ads.rawToMv (ads.decode register) < Ads1x15.fsRange ads.gain := by
  have hrange := fsRange_pos ads.gain
  have hunit : 0 < Ads1x15.fsRange ads.gain / 32768 := by positivity
  obtain ⟨hlo, hhi⟩ : -32768 ≤ (toInt16 register).val ∧ (toInt16 register).val ≤ 32767 :=
    ⟨(toInt16 register).ge, (toInt16 register).le⟩
  -- the quotient rounded down, over the integers
  have hdiv : (ads.decode register).val * (ads.step : ℤ) ≤ (toInt16 register).val ∧
      (toInt16 register).val < (ads.decode register).val * (ads.step : ℤ) + ads.step ∧
      -32768 ≤ (ads.decode register).val * (ads.step : ℤ) := by
    rw [val_decode]
    rcases step_eq ads with ⟨hstep, -⟩ | ⟨hstep, -⟩ <;> rw [hstep] <;> omega
  obtain ⟨hle, hlt, hmin⟩ := hdiv
  have hcode : ads.rawToMv (ads.decode register)
      = ((ads.decode register).val * (ads.step : ℤ) : ℤ) * (Ads1x15.fsRange ads.gain / 32768) := by
    rw [rawToMv_eq, stepMv]
    push_cast
    ring
  have hfull : Ads1x15.fsRange ads.gain = 32768 * (Ads1x15.fsRange ads.gain / 32768) := by ring
  generalize (ads.decode register).val * (ads.step : ℤ) = code at hle hlt hmin hcode
  rw [hcode, registerMv, stepMv]
  have hle' : (code : ℚ) ≤ (toInt16 register).val := by exact_mod_cast hle
  have hlt' : ((toInt16 register).val : ℚ) < code + ads.step := by exact_mod_cast hlt
  have hmin' : (-32768 : ℚ) ≤ code := by exact_mod_cast hmin
  have hmax' : (code : ℚ) < 32768 := by
    have : code < 32768 := by omega
    exact_mod_cast this
  refine ⟨⟨mul_le_mul_of_nonneg_right hle' hunit.le, ?_⟩, ?_, ?_⟩
  · rw [← add_mul]
    exact mul_lt_mul_of_pos_right hlt' hunit
  · have hlow := mul_le_mul_of_nonneg_right hmin' hunit.le
    linarith
  · have hhigh := mul_lt_mul_of_pos_right hmax' hunit
    linarith

/-- A register with a higher voltage is not reported lower. -/
theorem rawToMv_decode_mono (ads : Ads1x15) {r r' : UInt16}
    (h : (toInt16 r).val ≤ (toInt16 r').val) :
    ads.rawToMv (ads.decode r) ≤ ads.rawToMv (ads.decode r') := by
  have hcode : (ads.decode r).val ≤ (ads.decode r').val := by
    rw [val_decode, val_decode]
    have hstep : (0 : ℤ) < ads.step := by
      rcases step_eq ads with ⟨hstep, -⟩ | ⟨hstep, -⟩ <;> rw [hstep] <;> decide
    exact Int.ediv_le_ediv hstep h
  rw [rawToMv_eq, rawToMv_eq]
  exact mul_le_mul_of_nonneg_right (by exact_mod_cast hcode) (stepMv_pos ads).le

/-- **What a sample reports**, for both chips and every gain: the code is the signed register divided by
    its step, rounded down; the millivolts are the code in steps, which is the voltage in the register,
    rounded down to a step; they are at least minus and below plus full scale, and in the order of the
    registers. -/
theorem reportedMv_spec (ads : Ads1x15) (register : UInt16) :
    (ads.decode register).val = (toInt16 register).val / (ads.step : ℤ) ∧
    ads.rawToMv (ads.decode register) = (ads.decode register).val * ads.stepMv ∧
    (ads.rawToMv (ads.decode register) ≤ ads.registerMv register ∧
      ads.registerMv register < ads.rawToMv (ads.decode register) + ads.stepMv) ∧
    (-Ads1x15.fsRange ads.gain ≤ ads.rawToMv (ads.decode register) ∧
      ads.rawToMv (ads.decode register) < Ads1x15.fsRange ads.gain) ∧
    ∀ register', ads.registerMv register ≤ ads.registerMv register' →
      ads.rawToMv (ads.decode register) ≤ ads.rawToMv (ads.decode register') := by
  obtain ⟨hround, hscale⟩ := rawToMv_decode_bounds ads register
  refine ⟨val_decode ads register, rawToMv_eq ads _, hround, hscale,
    fun register' h => rawToMv_decode_mono ads ?_⟩
  have hunit : 0 < Ads1x15.fsRange ads.gain / 32768 := by
    have hrange := fsRange_pos ads.gain
    positivity
  exact_mod_cast le_of_mul_le_mul_right h hunit

end CroniotWatering.Espp.Ads1x15
