import CroniotWatering.Tasks.LedTasks

set_option autoImplicit false

/-! # The duty of the slider

The slider scales its value to a duty and clamps the duty afterwards. The clamp makes up for any value
outside of `0..100`, as long as the scaling before it stays within `int`. -/

namespace CroniotWatering.TaskLedSlider

/-- The duty an action sets. -/
def dutyWritten : Action → Option Int
  | .ledcSetDuty _ duty => some duty
  | _ => none

/-- The code for a message runs to its end and sets one duty, namely `duty`. -/
def SetsDuty (taskData : SimpleTaskData) (duty : Int) : Prop :=
  (executeTask taskData).result = .ok () ∧
    (executeTask taskData).trace.filterMap dutyWritten = [duty]

/-- The duty for a slider value, in unbounded integers. -/
def exactDuty (value : Int) : Int := min 255 (max 0 ((255 * value).tdiv 100))

theorem clamp_eq_exactDuty (value : Int) :
    CInt.clamp ((255 * value).tdiv 100) 0 255 = exactDuty value := by
  unfold CInt.clamp exactDuty
  split
  · omega
  · split <;> omega

/-! ## The exact duty -/

theorem exactDuty_of_nonpos {value : Int} (h : value ≤ 0) : exactDuty value = 0 := by
  unfold exactDuty
  rw [CInt.tdiv_of_nonpos (by omega)]
  omega

theorem exactDuty_of_nonneg {value : Int} (h : 0 ≤ value) :
    exactDuty value = min 255 (255 * value / 100) := by
  unfold exactDuty
  rw [Int.tdiv_eq_ediv_of_nonneg (by omega)]
  omega

theorem exactDuty_of_full {value : Int} (h : 100 ≤ value) : exactDuty value = 255 := by
  rw [exactDuty_of_nonneg (by omega)]
  omega

theorem exactDuty_mono {value value' : Int} (h : value ≤ value') :
    exactDuty value ≤ exactDuty value' := by
  by_cases hneg : value ≤ 0
  · rw [exactDuty_of_nonpos hneg]
    unfold exactDuty
    omega
  -- above 0, rounding toward zero is rounding down
  · rw [exactDuty_of_nonneg (by omega), exactDuty_of_nonneg (by omega)]
    omega

/-! ## The duty of the code -/

/-- The values whose scaling stays within `int`. -/
def Scalable (value : Int) : Prop := -8421504 ≤ value ∧ value ≤ 8421504

theorem scalable_iff (value : Int) : Scalable value ↔ CInt.InRange (255 * value) := by
  unfold Scalable CInt.InRange CInt.minValue CInt.maxValue
  omega

/-- A scalable value is clamped to the exact duty. -/
theorem setsDuty_of_scalable {taskData : SimpleTaskData} {state : String}
    (hkey : taskData.parametersValues.find taskLedSliderParameterSliderState = some state)
    (hscalable : Scalable (CString.atoi state)) :
    SetsDuty taskData (exactDuty (CString.atoi state)) := by
  have hmul : mulInt 255 (CString.atoi state) = ⟨[], .ok (255 * CString.atoi state)⟩ :=
    CInt.mul_of_inRange _ ((scalable_iff _).1 hscalable)
  unfold SetsDuty executeTask ParametersValues.at
  simp only [hkey, Exec.pure_eq, Exec.ok_bind, hmul, analogWrite, Exec.emit_eq,
    enqueueTaskProgressUpdate, clamp_eq_exactDuty]
  exact ⟨trivial, rfl⟩

/-- Any other value overflows before it is clamped. -/
theorem not_setsDuty_of_not_scalable {taskData : SimpleTaskData} {state : String}
    (hkey : taskData.parametersValues.find taskLedSliderParameterSliderState = some state)
    (hscalable : ¬ Scalable (CString.atoi state)) (duty : Int) : ¬ SetsDuty taskData duty := by
  have hmul : mulInt 255 (CString.atoi state) = ⟨[], .error .intOverflow⟩ :=
    if_neg fun hrange => hscalable ((scalable_iff _).2 hrange)
  rintro ⟨hresult, -⟩
  unfold executeTask ParametersValues.at at hresult
  simp [hkey, hmul] at hresult

/-- **The duty of the slider.** For a message with a value, the code sets the exact duty precisely if
    the value is scalable; and whatever duties it sets are monotone in the value, 0 from 0 downwards
    and 255 from 100 upwards. -/
theorem setsDuty_iff {taskData : SimpleTaskData} {state : String}
    (hkey : taskData.parametersValues.find taskLedSliderParameterSliderState = some state) :
    (SetsDuty taskData (exactDuty (CString.atoi state)) ↔ Scalable (CString.atoi state)) ∧
    ∀ duty, SetsDuty taskData duty →
      (CString.atoi state ≤ 0 → duty = 0) ∧ (100 ≤ CString.atoi state → duty = 255) ∧
      ∀ (taskData' : SimpleTaskData) (state' : String) (duty' : Int),
        taskData'.parametersValues.find taskLedSliderParameterSliderState = some state' →
        SetsDuty taskData' duty' → CString.atoi state ≤ CString.atoi state' → duty ≤ duty' := by
  -- a code that sets any duty has not overflowed, and then it sets the exact one
  have hexact : ∀ {taskData : SimpleTaskData} {state : String} {duty : Int},
      taskData.parametersValues.find taskLedSliderParameterSliderState = some state →
      SetsDuty taskData duty →
      Scalable (CString.atoi state) ∧ duty = exactDuty (CString.atoi state) := by
    intro taskData state duty hkey hsets
    by_cases hscalable : Scalable (CString.atoi state)
    · have hlist := hsets.2.symm.trans (setsDuty_of_scalable hkey hscalable).2
      exact ⟨hscalable, (List.cons.inj hlist).1⟩
    · exact absurd hsets (not_setsDuty_of_not_scalable hkey hscalable duty)
  refine ⟨⟨fun hsets => (hexact hkey hsets).1, setsDuty_of_scalable hkey⟩, fun duty hsets => ?_⟩
  obtain ⟨-, rfl⟩ := hexact hkey hsets
  refine ⟨exactDuty_of_nonpos, exactDuty_of_full, ?_⟩
  intro taskData' state' duty' hkey' hsets' hle
  obtain ⟨-, rfl⟩ := hexact hkey' hsets'
  exact exactDuty_mono hle

/-- Half brightness. -/
theorem setsDuty_half :
    SetsDuty ⟨7, .single taskLedSliderParameterSliderState "50"⟩ 127 := by
  have hvalue : CString.atoi "50" = 50 := by decide +kernel
  have hscalable : Scalable (CString.atoi "50") := by
    rw [hvalue]
    unfold Scalable
    omega
  have hduty : exactDuty (CString.atoi "50") = 127 := by
    rw [hvalue]
    decide
  rw [← hduty]
  exact (@setsDuty_iff ⟨7, .single taskLedSliderParameterSliderState "50"⟩ "50" rfl).1.2 hscalable

/-- The first value past the threshold overflows. -/
theorem not_setsDuty_large :
    ¬ ∀ (taskData : SimpleTaskData) (state : String),
      taskData.parametersValues.find taskLedSliderParameterSliderState = some state →
      SetsDuty taskData (exactDuty (CString.atoi state)) := by
  intro hclaim
  have hvalue : CString.atoi "8421505" = 8421505 := by decide +kernel
  have hscalable : ¬ Scalable (CString.atoi "8421505") := by
    rw [hvalue]
    unfold Scalable
    omega
  have hsets := hclaim ⟨7, .single taskLedSliderParameterSliderState "8421505"⟩ "8421505" rfl
  exact not_setsDuty_of_not_scalable rfl hscalable _ hsets

end CroniotWatering.TaskLedSlider
