/-!
# Fallible results

When a result that was changed afterwards is a success or a failure.
-/
namespace FakeData

variable {ε α β : Type}

theorem map_eq_ok_iff {result : Except ε α} {f : α → β} {value : β} :
    result.map f = .ok value ↔ ∃ before, result = .ok before ∧ f before = value := by
  cases result with
  | error fault => simp [Except.map]
  | ok before => simp [Except.map]

theorem map_eq_error_iff {result : Except ε α} {f : α → β} {fault : ε} :
    result.map f = .error fault ↔ result = .error fault := by
  cases result with
  | error other => simp [Except.map]
  | ok before => simp [Except.map]

theorem toOption_eq_some_iff {result : Except ε α} {value : α} :
    result.toOption = some value ↔ result = .ok value := by
  cases result <;> simp [Except.toOption]

theorem toOption_map_eq_some_iff {result : Except ε α} {f : α → β} {value : β} :
    result.toOption.map f = some value ↔ ∃ before, result = .ok before ∧ f before = value := by
  simp only [Option.map_eq_some_iff, toOption_eq_some_iff]

end FakeData
