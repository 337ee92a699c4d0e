import CroniotWatering.Sensors.ADS1115Controller.Sharing

set_option autoImplicit false

/-! # What the inputs measure

The shared converter between inputs that measure some results and no others. As long as no reading fails,
each returns a result of its own channel, whatever other threads read in between. -/

namespace CroniotWatering.ADS1115Controller

open Espp Espp.Ads1x15

/-- A conversion of a channel, if it was the latest, had one of the results the channel can have. -/
def Genuine (possible : Fin 4 → UInt16 → Prop) (d : Converter) : Prop :=
  ∀ pin, d.converted.1 = muxByChannel pin → possible pin d.converted.2

/-- The converter, when the conversions of each channel have these results. -/
def sharedInputs (possible : Fin 4 → UInt16 → Prop) :
    Lock.System (Fin 4) Transfer Reply Ads1x15.Outcome Phase Converter :=
  { sharedConverter with
    reacts := fun d q reply d' =>
      d.reacts q reply d' ∧ (d'.converted = d.converted ∨ Genuine possible d') }

/-- What a reading returns for a result. -/
def readingOf (result : UInt16) : Int := readValueBlocking (some ((ads initializedBus).decode result))

variable {Tid : Type} [DecidableEq Tid] {possible : Fin 4 → UInt16 → Prop} {h : History Tid}
  {d d' : Converter} {pin : Fin 4}

/-- No reading has failed. -/
def AllSucceeded (h : History Tid) : Prop := ∀ pin, (pin, none) ∉ outcomes h

/-- If no reading has failed, each has returned a result of its channel. -/
def Faithful (possible : Fin 4 → UInt16 → Prop) (h : History Tid) : Prop :=
  AllSucceeded h → ∀ pin code, (pin, some code) ∈ outcomes h →
    ∃ result, possible pin result ∧ code = (ads initializedBus).decode result

omit [DecidableEq Tid] in
theorem AllSucceeded.latest (hok : AllSucceeded h) : LatestSucceeded h := by
  rintro pin _ rest heq rfl
  exact hok pin (by rw [heq]; exact List.mem_cons_self)

theorem Genuine.exchange {q : Transfer} {reply : Reply} (hgenuine : Genuine possible d)
    (hreact : (sharedInputs possible).reacts d q reply d') : Genuine possible d' := by
  rcases hreact.2 with hsame | hgenuine'
  · unfold Genuine at hgenuine ⊢
    rw [hsame]
    exact hgenuine
  · exact hgenuine'

omit [DecidableEq Tid] in
theorem Faithful.release {t : Tid} {outcome : Ads1x15.Outcome} (hfaithful : Faithful possible h)
    (hgenuine : Genuine possible d) (hsettled : Settled (.release t pin outcome :: h) d) :
    Faithful possible (.release t pin outcome :: h) := by
  intro hok pin' code hmem
  have hbefore : AllSucceeded h := fun p hp => hok p (List.mem_cons_of_mem _ hp)
  rcases List.mem_cons.1 hmem with heq | hmem
  · cases heq
    obtain ⟨hcode, hown⟩ := hsettled.own t pin code h rfl
    exact ⟨d.converted.2, hgenuine pin (hown hbefore.latest), hcode⟩
  · exact hfaithful hbefore pin' code hmem

/-- **Readings return what their inputs measure.** -/
theorem faithful_of_run {d₀ : Converter} (hidle : d₀.Idle) (hgenuine : Genuine possible d₀)
    {s : Lock.State Tid (Fin 4) Phase Converter} (hrun : (sharedInputs possible).Run d₀ h s) :
    Faithful possible h := by
  have hinit : Settled ([] : History Tid) d₀ := ⟨fun _ => hidle, fun _ _ _ _ heq => nomatch heq⟩
  obtain ⟨holder, -, hdevice⟩ := hrun.rule (S := sharedInputs possible)
    (J := fun h d => Settled h d ∧ Genuine possible d ∧ Faithful possible h)
    (L := fun pin phase h d => Underway pin phase h d ∧ Genuine possible d ∧ Faithful possible h)
    ⟨hinit, hgenuine, fun _ _ _ hmem => nomatch hmem⟩
    (fun _ _ _ _ hfree => ⟨underway_acquire hfree.1, hfree.2⟩)
    (fun _ _ _ _ _ _ _ _ hheld hmove hreact =>
      ⟨underway_exchange hheld.1 hmove hreact.1, hheld.2.1.exchange hreact, hheld.2.2⟩)
    (fun _ _ _ _ _ _ hheld hdone =>
      have hsettled := settled_release hheld.1 hdone
      ⟨hsettled, hheld.2.1, hheld.2.2.release hheld.2.1 hsettled⟩)
  cases holder with
  | none => exact hdevice.2.2
  | some holder => exact hdevice.2.2

/-- After power-up, the converter has converted no channel. -/
theorem genuine_idleConverter : Genuine possible idleConverter := by
  intro pin hpin
  exact absurd hpin (by decide +revert)

/-- An idle converter can serve a reading with each result of the channel. -/
theorem served_inputs {result : UInt16} (hidle : d.Idle) (hpossible : possible pin result) :
    Served (sharedInputs possible).reacts d (exchangedFor pin result)
      ⟨pointerConvert, none, (muxByChannel pin, result)⟩ := by
  refine (served_exchangedFor hidle pin result).mono fun _ _ _ d' hreact => ⟨hreact.1, ?_⟩
  refine hreact.2.imp_right fun hconverted pin' hpin => ?_
  rw [hconverted] at hpin ⊢
  rwa [← muxByChannel_injective hpin]

end CroniotWatering.ADS1115Controller
