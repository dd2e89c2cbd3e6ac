import FakeData.Draw.Script
import FakeData.Proofs.Draw

/-!
# Outcomes as runs

Every run is an outcome, and here every outcome is a run: a script of the indices that were
answered leads to it.
-/
namespace FakeData

open Draw (Answer Ends)

namespace Script

def ofAnswers (answers : List Answer) : Script := ⟨answers.map fun answer => answer.index.val⟩

/-- The script gives the first index, and then it is that of the other answers. -/
theorem next_ofAnswers (answer : Answer) (answers : List Answer) (positive : 0 < answer.bound) :
    IndexSource.next (ofAnswers (answer :: answers)) answer.bound positive =
      (answer.index, ofAnswers answers) := by
  have hindex : answer.index.val % answer.bound = answer.index.val :=
    Nat.mod_eq_of_lt answer.index.isLt
  simp [IndexSource.next, next, ofAnswers, hindex]

end Script

namespace Draw

variable {α : Type} {draw : Draw α} {answers : List Answer} {value : α}

theorem Ends.run_script (h : Ends draw answers value) :
    (draw.run (Script.ofAnswers answers)).1 = value := by
  induction h with
  | done value => rfl
  | ask positive next i rest ih =>
    rw [run, Script.next_ofAnswers ⟨_, i⟩ _ positive]
    exact ih

theorem Ends.answers_script (h : Ends draw answers value) :
    draw.answers (Script.ofAnswers answers) = answers := by
  induction h with
  | done value => rfl
  | ask positive next i rest ih =>
    rw [Draw.answers, Script.next_ofAnswers ⟨_, i⟩ _ positive, ih]

/-- The outcomes are the runs with the scripts of their answers. -/
theorem ends_iff_script : Ends draw answers value ↔
    draw.answers (Script.ofAnswers answers) = answers ∧
      (draw.run (Script.ofAnswers answers)).1 = value := by
  constructor
  · intro h
    exact ⟨h.answers_script, h.run_script⟩
  · rintro ⟨hanswers, rfl⟩
    have h := ends_run draw (Script.ofAnswers answers)
    rwa [hanswers] at h

end Draw

end FakeData
