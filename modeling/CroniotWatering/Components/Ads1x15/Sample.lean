import CroniotWatering.Components.Ads1x15

set_option autoImplicit false

/-! # A sample as an automaton

What `sample_raw` is for: configure the converter, ask it until it is not busy, and fetch the result;
the first transfer that fails ends it. Over the separate write and read functions that this firmware
gives the driver, the driver's code follows this automaton on every list of replies. -/

namespace CroniotWatering.Espp

namespace Ads1x15

/-- Where a sample stands, by the transfer it makes next. -/
inductive Phase where
  | configure
  | setHithresh
  | setLowthresh
  | selectConfig
  | readConfig
  | selectConvert
  | readConvert
  | finished (outcome : Ads1x15.Outcome)

/-- The converter says that it is not performing a conversion. -/
def notBusy (byte : ℕ → UInt8) : Prop :=
  BasePeripheral.ofBigEndian (byte 0) (byte 1) &&& regConfigOsNotbusy = regConfigOsNotbusy

instance (byte : ℕ → UInt8) : Decidable (notBusy byte) :=
  inferInstanceAs (Decidable (_ = _))

variable (ads : Ads1x15) (channel : Fin 4)

namespace Phase

def move : Phase → Move Transfer Ads1x15.Outcome
  | .configure =>
      .ask (.write ads.base.address (pointerConfig :: BasePeripheral.bigEndian (ads.configWord channel)))
  | .setHithresh => .ask (.write ads.base.address (pointerHithresh :: BasePeripheral.bigEndian 0x8000))
  | .setLowthresh => .ask (.write ads.base.address (pointerLowthresh :: BasePeripheral.bigEndian 0x0000))
  | .selectConfig => .ask (.write ads.base.address [pointerConfig])
  | .readConfig => .ask (.read ads.base.address 2)
  | .selectConvert => .ask (.write ads.base.address [pointerConvert])
  | .readConvert => .ask (.read ads.base.address 2)
  | .finished outcome => .done outcome

/-- After a transfer that succeeded. -/
def advance (byte : ℕ → UInt8) : Phase → Phase
  | .configure => .setHithresh
  | .setHithresh => .setLowthresh
  | .setLowthresh => .selectConfig
  | .selectConfig => .readConfig
  | .readConfig => if notBusy byte then .selectConvert else .selectConfig
  | .selectConvert => .readConvert
  | .readConvert => .finished (some (ads.decode (BasePeripheral.ofBigEndian (byte 0) (byte 1))))
  | .finished outcome => .finished outcome

def next (phase : Phase) : Reply → Phase
  | .error => .finished none
  | .ok byte => phase.advance ads byte

end Phase

/-- The automaton of one sample. -/
def sample : Machine Transfer Reply Ads1x15.Outcome Phase where
  move := Phase.move ads channel
  next := Phase.next ads

/-- What `sample_raw` returns for an outcome, with the error code it sets. -/
def rawResult : Ads1x15.Outcome → Ads1x15.RawCode × ErrorCode
  | none => (toInt16 0, some .ioError)
  | some raw => (raw, none)

/-! ## The calls of the driver, by their transfers -/

variable {ads channel}

theorem conversionComplete_of_wired (hbase : ads.base.Wired) :
    ads.conversionComplete none
      = Dialogue.ask (.write ads.base.address [pointerConfig]) >>= fun
          | .error => pure (false, some .ioError)
          | .ok _ => Dialogue.ask (.read ads.base.address 2) >>= fun
              | .error => pure (false, some .ioError)
              | .ok byte => pure (decide (notBusy byte), none) := by
  rw [conversionComplete, hbase.readU16_eq, bind_assoc]
  congr 1
  funext err
  cases err with
  | error => rfl
  | ok _ =>
      rw [bind_assoc]
      congr 1
      funext err
      cases err <;> rfl

theorem waitStep_of_wired (hbase : ads.base.Wired) :
    ads.waitStep none
      = Dialogue.ask (.write ads.base.address [pointerConfig]) >>= fun
          | .error => pure (.inr (some .ioError))
          | .ok _ => Dialogue.ask (.read ads.base.address 2) >>= fun
              | .error => pure (.inr (some .ioError))
              | .ok byte => pure (if notBusy byte then .inr none else .inl none) := by
  rw [waitStep, conversionComplete_of_wired hbase, bind_assoc]
  congr 1
  funext err
  cases err with
  | error => rfl
  | ok _ =>
      rw [bind_assoc]
      congr 1
      funext err
      cases err with
      | error => rfl
      | ok byte => by_cases hbusy : notBusy byte <;> simp [hbusy]

theorem waits_waitStep (hbase : ads.base.Wired) : Dialogue.Waits (ads.waitStep none) := by
  rw [waitStep_of_wired hbase]
  intro rs qs s rest h
  refine Dialogue.Consumes.ask_bind (fun err => ?_) rs qs _ rest h
  cases err with
  | error => exact Dialogue.consumes_pure _
  | ok _ =>
      intro rs qs a rest h
      refine Nat.le_of_lt (Dialogue.Consumes.ask_bind (fun err => ?_) rs qs a rest h)
      cases err <;> exact Dialogue.consumes_pure _

/-- **The waiting loop, unrolled once.** -/
theorem waitForConversion_eq (hbase : ads.base.Wired) :
    ads.waitForConversion none
      = Dialogue.ask (.write ads.base.address [pointerConfig]) >>= fun
          | .error => pure (some .ioError)
          | .ok _ => Dialogue.ask (.read ads.base.address 2) >>= fun
              | .error => pure (some .ioError)
              | .ok byte => if notBusy byte then pure none else ads.waitForConversion none := by
  have hunroll := Dialogue.iterate_eq (waits_waitStep hbase)
  rw [waitStep_of_wired hbase] at hunroll
  refine Eq.trans hunroll ?_
  rw [bind_assoc]
  congr 1
  funext err
  cases err with
  | error => rfl
  | ok _ =>
      rw [bind_assoc]
      congr 1
      funext err
      cases err with
      | error => rfl
      | ok byte => by_cases hbusy : notBusy byte <;> simp [hbusy, waitForConversion]

/-! ## The driver follows the automaton -/

/-- What the code does after a call that sets the error code: return early, or go on. -/
def orReturn (ec : ErrorCode) (rest : ErrorCode → BusM (Ads1x15.RawCode × ErrorCode)) :
    BusM (Ads1x15.RawCode × ErrorCode) :=
  if ec.isSome then pure (toInt16 0, ec) else rest ec

/-- A state of the automaton is followed on up to `n` replies. -/
abbrev FollowsFrom (ads : Ads1x15) (channel : Fin 4) (n : ℕ) (phase : Phase)
    (x : BusM (Ads1x15.RawCode × ErrorCode)) : Prop :=
  x.Follows n ((ads.sample channel).map rawResult) phase

theorem followsFrom_finished (n : ℕ) (outcome : Ads1x15.Outcome) :
    FollowsFrom ads channel n (.finished outcome) (pure (rawResult outcome)) :=
  .pure rfl

/-- A request of the automaton: the code stops if it fails, and otherwise follows the next state. -/
theorem FollowsFrom.ask {n : ℕ} {phase : Phase} {q : Transfer}
    {f : Reply → BusM (Ads1x15.RawCode × ErrorCode)} (hmove : phase.move ads channel = .ask q)
    (herror : f .error = pure (rawResult none))
    (hok : ∀ m < n, ∀ byte, FollowsFrom ads channel m (phase.advance ads byte) (f (.ok byte))) :
    FollowsFrom ads channel n phase (Dialogue.ask q >>= f) := by
  refine Dialogue.Follows.ask (Machine.move_map_of_ask rawResult hmove) fun err m hm => ?_
  cases err with
  | error =>
      rw [herror]
      exact followsFrom_finished m none
  | ok byte => exact hok m hm byte

/-- A write of the driver. -/
theorem FollowsFrom.write (hbase : ads.base.Wired) {n : ℕ} {phase phase' : Phase} {regAddr : UInt8}
    {data : UInt16} {rest : ErrorCode → BusM (Ads1x15.RawCode × ErrorCode)}
    (hmove : phase.move ads channel
      = .ask (.write ads.base.address (regAddr :: BasePeripheral.bigEndian data)))
    (hnext : ∀ byte, phase.advance ads byte = phase')
    (hrest : ∀ m < n, FollowsFrom ads channel m phase' (rest none)) (ec : ErrorCode) :
    FollowsFrom ads channel n phase
      (ads.base.writeU16ToRegister regAddr data ec >>= fun ec => orReturn ec rest) := by
  rw [hbase.writeU16_eq, bind_assoc]
  refine .ask hmove rfl fun m hm byte => ?_
  rw [hnext byte]
  exact hrest m hm

/-- What the code does once the conversion is complete. -/
def fetch (ads : Ads1x15) (ec : ErrorCode) : BusM (Ads1x15.RawCode × ErrorCode) := do
  let (register, ec) ← ads.base.readU16FromRegister pointerConvert ec
  orReturn ec fun ec => pure (ads.decode register, ec)

theorem followsFrom_fetch (hbase : ads.base.Wired) (n : ℕ) :
    FollowsFrom ads channel n .selectConvert (ads.fetch none) := by
  rw [fetch, hbase.readU16_eq, bind_assoc]
  refine .ask rfl rfl fun m _ _ => ?_
  show FollowsFrom ads channel m .readConvert _
  rw [bind_assoc]
  refine .ask rfl rfl fun k _ byte => ?_
  exact followsFrom_finished k (some (ads.decode (BasePeripheral.ofBigEndian (byte 0) (byte 1))))

/-- The induction is on the replies that are left: one repetition of the loop uses two. -/
theorem followsFrom_wait (hbase : ads.base.Wired) (n : ℕ) :
    FollowsFrom ads channel n .selectConfig
      (ads.waitForConversion none >>= fun ec => orReturn ec ads.fetch) := by
  induction n using Nat.strong_induction_on with
  | _ n ih =>
      rw [waitForConversion_eq hbase, bind_assoc]
      refine .ask rfl rfl fun m hm _ => ?_
      show FollowsFrom ads channel m .readConfig _
      rw [bind_assoc]
      refine .ask rfl rfl fun k hk byte => ?_
      show FollowsFrom ads channel k (if notBusy byte then .selectConvert else .selectConfig) _
      by_cases hbusy : notBusy byte
      · simp only [hbusy, if_true]
        exact followsFrom_fetch hbase k
      · simp only [hbusy, if_false]
        exact ih k (Nat.lt_trans hk hm)

/-- **The driver is the automaton.** Whatever the replies, `sample_raw` makes the requests of the
    automaton and returns what the automaton comes to. -/
theorem run_sampleRaw (hbase : ads.base.Wired) (ec : ErrorCode) (rs : List Reply) :
    (ads.sampleRaw channel ec).run rs = ((ads.sample channel).run .configure rs).map rawResult := by
  rw [← Machine.run_map]
  refine Dialogue.Follows.run_eq (fun n => ?_) rs
  show FollowsFrom ads channel n .configure _
  refine .write hbase rfl (fun _ => rfl) (fun m _ => ?_) ec
  refine .write hbase rfl (fun _ => rfl) (fun m _ => ?_) none
  refine .write hbase rfl (fun _ => rfl) (fun m _ => ?_) none
  exact followsFrom_wait hbase m

end Ads1x15

end CroniotWatering.Espp
