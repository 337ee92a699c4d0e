import CroniotWatering.Tasks.TaskWaterPlants

set_option autoImplicit false

/-! # Reading the duration

`parseDurationSeconds` replaced a call of `std::stoi` when exceptions were switched off. The two read
the same numbers, except that `std::stoi` skips white space and a plus sign in front of them. -/

namespace CroniotWatering.TaskWaterPlantsLogic

theorem parseDurationSeconds_eq (durationParam : String) :
    parseDurationSeconds durationParam = (CString.fromChars durationParam).toOption := by
  unfold parseDurationSeconds
  by_cases hempty : durationParam.isEmpty = true
  · have hnil : durationParam = "" := String.isEmpty_iff.1 hempty
    rw [hnil]
    rfl
  · rw [if_neg hempty]
    cases CString.fromChars durationParam <;> rfl

/-- The parse returns what `std::stoi` returns, and `std::nullopt` where it throws. -/
def ParsesLikeStoi (durationParam : String) : Prop :=
  (∀ value, parseDurationSeconds durationParam = some value
    ↔ CString.stoi durationParam = .ok value) ∧
  (parseDurationSeconds durationParam = none ↔ ∃ e, CString.stoi durationParam = .error e)

/-- **Where the parse is `std::stoi`.** A string that starts with white space or a plus sign must be
    one that `std::stoi` rejects too; on all other strings the two agree. -/
theorem parsesLikeStoi_iff (durationParam : String) :
    ParsesLikeStoi durationParam
      ↔ (CString.startsLenient durationParam = true →
          ∃ e, CString.stoi durationParam = .error e) := by
  refine ⟨fun hlike hlenient => ?_, fun hrejects => ?_⟩
  · have hnone : parseDurationSeconds durationParam = none := by
      rw [parseDurationSeconds_eq, CString.fromChars_of_lenient hlenient]
      rfl
    exact hlike.2.1 hnone
  · cases hlenient : CString.startsLenient durationParam with
    -- here the parse rejects the string whatever follows
    | true =>
        obtain ⟨e, he⟩ := hrejects hlenient
        unfold ParsesLikeStoi
        rw [parseDurationSeconds_eq, CString.fromChars_of_lenient hlenient, he]
        simp [Except.toOption]
    -- here both read the same
    | false =>
        unfold ParsesLikeStoi
        rw [parseDurationSeconds_eq, CString.fromChars_eq_stoi hlenient]
        cases CString.stoi durationParam <;> simp [Except.toOption]

/-- `" 30"` is 30 to `std::stoi`, and nothing to the parse. -/
theorem not_parsesLikeStoi_blank : ¬ ∀ durationParam : String, ParsesLikeStoi durationParam := by
  intro hclaim
  have hstoi : CString.stoi " 30" = .ok 30 := by decide
  have hparse : parseDurationSeconds " 30" = some 30 := ((hclaim " 30").1 30).2 hstoi
  exact absurd hparse (by decide)

end CroniotWatering.TaskWaterPlantsLogic
