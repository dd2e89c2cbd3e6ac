import FakeData.Draw.Basic

/-!
# Outcomes of draws

The ways in which a draw can end, each with the answers that lead to it. A run with any source
ends in one of them, so what holds of every outcome holds of every run.
-/
namespace FakeData.Draw

variable {α β σ : Type}

/-- A bound that was asked for, and the index that was answered. -/
structure Answer where
  bound : Nat
  index : Fin bound

/-- After these answers the draw is done, with this value. -/
inductive Ends : Draw α → List Answer → α → Prop where
  | done (value : α) : Ends (.done value) [] value
  | ask {bound : Nat} (positive : 0 < bound) (next : Fin bound → Draw α) (i : Fin bound)
      {answers : List Answer} {value : α} (rest : Ends (next i) answers value) :
      Ends (.ask bound positive next) (⟨bound, i⟩ :: answers) value

@[simp] theorem ends_done {value other : α} {answers : List Answer} :
    Ends (.done value) answers other ↔ answers = [] ∧ other = value := by
  constructor
  · intro h
    cases h
    exact ⟨rfl, rfl⟩
  · rintro ⟨rfl, rfl⟩
    exact .done _

/-- The answers of a sequence are those of its first part, and then those of its second. -/
theorem ends_andThen {draw : Draw α} {f : α → Draw β} {answers : List Answer} {result : β} :
    Ends (draw.andThen f) answers result ↔
      ∃ first value rest, answers = first ++ rest ∧ Ends draw first value ∧
        Ends (f value) rest result := by
  induction draw generalizing answers with
  | done value =>
    constructor
    · intro h
      exact ⟨[], value, answers, rfl, .done value, h⟩
    · rintro ⟨first, other, rest, rfl, hfirst, hrest⟩
      obtain ⟨rfl, rfl⟩ := ends_done.mp hfirst
      exact hrest
  | ask bound positive next ih =>
    constructor
    · intro h
      cases h with
      | ask _ _ i h =>
        obtain ⟨first, value, rest, rfl, hfirst, hrest⟩ := (ih i).mp h
        exact ⟨_, value, rest, rfl, .ask positive next i hfirst, hrest⟩
    · rintro ⟨_, value, rest, rfl, hfirst, hrest⟩
      cases hfirst with
      | ask _ _ i hfirst =>
        have hnext := (ih i).mpr ⟨_, value, rest, rfl, hfirst, hrest⟩
        exact .ask positive _ i hnext

/-- Picking asks once, for the position of an element. -/
theorem ends_pick {items : List α} {nonempty : 0 < items.length} {answers : List Answer}
    {item : α} : Ends (pick items nonempty) answers item ↔
      ∃ i : Fin items.length, answers = [⟨items.length, i⟩] ∧ item = items.get i := by
  constructor
  · intro h
    cases h with
    | ask _ _ i h =>
      obtain ⟨rfl, rfl⟩ := ends_done.mp h
      exact ⟨i, rfl, rfl⟩
  · rintro ⟨i, rfl, rfl⟩
    exact .ask nonempty _ i (.done _)

theorem ends_index {bound : Nat} {positive : 0 < bound} {answers : List Answer} {i : Fin bound} :
    Ends (index bound positive) answers i ↔ answers = [⟨bound, i⟩] := by
  constructor
  · intro h
    cases h with
    | ask _ _ i h =>
      obtain ⟨rfl, rfl⟩ := ends_done.mp h
      rfl
  · rintro rfl
    exact .ask positive _ i (.done _)

/-! ## Runs -/

variable [IndexSource σ]

def answers : Draw α → σ → List Answer
  | .done _, _ => []
  | .ask bound positive next, source =>
    ⟨bound, (IndexSource.next source bound positive).1⟩ ::
      (next (IndexSource.next source bound positive).1).answers
        (IndexSource.next source bound positive).2

/-- A run with any source is one of the outcomes. -/
theorem ends_run (draw : Draw α) (source : σ) :
    Ends draw (draw.answers source) (draw.run source).1 := by
  induction draw generalizing source with
  | done value => exact .done value
  | ask bound positive next ih => exact .ask positive next _ (ih _ _)

theorem bounds_eq_answers (draw : Draw α) (source : σ) :
    draw.bounds source = (draw.answers source).map Answer.bound := by
  induction draw generalizing source with
  | done value => rfl
  | ask bound positive next ih => simp only [bounds, answers, List.map_cons, ih]

theorem length_bounds (draw : Draw α) (source : σ) :
    (draw.bounds source).length = (draw.answers source).length := by
  rw [bounds_eq_answers, List.length_map]

/-- No bound that is asked for is zero. -/
theorem bounds_pos (draw : Draw α) (source : σ) : ∀ bound ∈ draw.bounds source, 0 < bound := by
  induction draw generalizing source with
  | done value => simp
  | ask bound positive next ih =>
    intro other h
    rcases List.mem_cons.mp h with rfl | h
    · exact positive
    · exact ih _ _ other h

/-- A run that asks for nothing leaves its source as it was. -/
theorem run_snd_of_bounds_eq_nil {draw : Draw α} {source : σ} (h : draw.bounds source = []) :
    (draw.run source).2 = source := by
  cases draw with
  | done value => rfl
  | ask bound positive next => cases h

end FakeData.Draw
