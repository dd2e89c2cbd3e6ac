import FakeData.Proofs.Draw.Script
import FakeData.Proofs.Selection

/-!
# Choices

One choice for each map makes a value, and it is made by one sequence of draws, whose bounds depend
on the earlier draws. There is such a sequence for all choices, and no other sequence.
-/
namespace FakeData.Selection

open Draw (Answer Ends)

variable {shared : Option Nat} {map : ValueMap} {maps : List ValueMap} {answers : List Answer}

/-! ## Choices of a selection -/

/-- The sequence of draws by which one choice for each map is made. -/
inductive Chosen (maps : List ValueMap) (choices : List Choice) :
    Selection → List Answer → Prop where
  /-- A key and then a candidate for one map after the other. -/
  | independent (of_maps : choices.map Choice.map = maps) :
      Chosen maps choices .independent
        (choices.flatMap fun choice => [choice.keyAnswer, choice.candidateAnswer])
  /-- A position in the first map, and then a candidate for one map after the other. -/
  | correlated (of_maps : choices.map Choice.map = maps) {first : ValueMap}
      (head : maps.head? = some first) (position : Fin first.length)
      (inStep : ∀ choice ∈ choices,
        choice.key.val = min position.val (choice.map.length - 1)) :
      Chosen maps choices .correlated
        (⟨first.length, position⟩ :: choices.map Choice.candidateAnswer)

variable {selection : Selection} {choices others : List Choice}

theorem Chosen.of_maps (chosen : Chosen maps choices selection answers) :
    choices.map Choice.map = maps := by
  cases chosen with
  | independent of_maps => exact of_maps
  | correlated of_maps => exact of_maps

/-- Settling the shared position and drawing the choices with it. -/
theorem chosen_iff_shared {first : ValueMap} (nonempty : 0 < first.length)
    (head : maps.head? = some first) :
    Chosen maps choices selection answers ↔
      ∃ sharing shared, Ends (sharedPosition selection first nonempty) sharing shared ∧
        choices.map Choice.map = maps ∧ (∀ choice ∈ choices, choice.InStep shared) ∧
        answers = sharing ++ choices.flatMap (·.answersWith shared) := by
  cases selection with
  | independent =>
    simp only [sharedPosition, Draw.ends_done]
    constructor
    · rintro ⟨of_maps⟩
      exact ⟨[], none, ⟨rfl, rfl⟩, of_maps, by simp [Choice.InStep], rfl⟩
    · rintro ⟨_, _, ⟨rfl, rfl⟩, of_maps, -, rfl⟩
      exact .independent of_maps
  | correlated =>
    constructor
    · intro chosen
      cases chosen with
      | correlated of_maps head' position inStep =>
        obtain rfl := Option.some.inj (head.symm.trans head')
        have hsharing : Ends (sharedPosition .correlated first nonempty)
            [⟨first.length, position⟩] (some position.val) :=
          ends_sharedPosition_correlated.mpr ⟨position, rfl, rfl⟩
        refine ⟨_, _, hsharing, of_maps, ?_, by rw [List.map_eq_flatMap]; rfl⟩
        rintro choice hchoice _ ⟨⟩
        exact inStep choice hchoice
    · rintro ⟨sharing, shared, hsharing, of_maps, inStep, rfl⟩
      obtain ⟨position, rfl, rfl⟩ := ends_sharedPosition_correlated.mp hsharing
      have chosen := Chosen.correlated of_maps head position
        fun choice hchoice => inStep choice hchoice position.val rfl
      rwa [List.map_eq_flatMap] at chosen

/-- Selection makes one choice for each map, and joins the candidates. -/
theorem ends_selectValues_iff {result : Except Failure String}
    (nonempty : maps ≠ []) (complete : ∀ map ∈ maps, map.IsComplete) :
    Ends (selectValues selection maps) answers result ↔
      ∃ choices, Chosen maps choices selection answers ∧
        result = .ok (" ".intercalate (choices.map Choice.value)) := by
  obtain ⟨first, head⟩ := Option.isSome_iff_exists.mp (List.isSome_head?.mpr nonempty)
  have hfirst : 0 < first.length :=
    List.length_pos_iff.mpr (complete first (List.mem_of_head? head)).nonempty
  simp only [ends_selectValues_complete hfirst head complete, chosen_iff_shared hfirst head]
  constructor
  · rintro ⟨sharing, shared, choices, hsharing, of_maps, inStep, hanswers, hresult⟩
    exact ⟨choices, ⟨sharing, shared, hsharing, of_maps, inStep, hanswers⟩, hresult⟩
  · rintro ⟨choices, ⟨sharing, shared, hsharing, of_maps, inStep, hanswers⟩, hresult⟩
    exact ⟨sharing, shared, choices, hsharing, of_maps, inStep, hanswers, hresult⟩

/-! ## Choices and draws determine each other -/

theorem Choice.eq_of_draws {choice other : Choice} (of_map : choice.map = other.map)
    (key : choice.key.val = other.key.val)
    (candidate : choice.candidate.val = other.candidate.val) : choice = other := by
  obtain ⟨map, key, candidate⟩ := choice
  obtain ⟨_, otherKey, otherCandidate⟩ := other
  obtain rfl := of_map
  obtain rfl := Fin.ext key
  obtain rfl := Fin.ext candidate
  rfl

/-- Where the keys keep step, the draws of a choice leave nothing open. -/
theorem Choice.eq_of_answersWith {choice other : Choice} (of_map : choice.map = other.map)
    (inStep : choice.InStep shared) (otherInStep : other.InStep shared)
    (h : choice.answersWith shared = other.answersWith shared) : choice = other := by
  have index_eq {answer otherAnswer : Answer} (h : answer = otherAnswer) :
      answer.index.val = otherAnswer.index.val := by
    rw [h]
  cases shared with
  | none =>
    obtain ⟨hkey, hcandidates⟩ := List.cons.inj h
    obtain ⟨hcandidate, -⟩ := List.cons.inj hcandidates
    exact eq_of_draws of_map (index_eq hkey) (index_eq hcandidate)
  | some index =>
    obtain ⟨hcandidate, -⟩ := List.cons.inj h
    have hkey : choice.key.val = other.key.val := by
      rw [inStep index rfl, otherInStep index rfl, of_map]
    exact eq_of_draws of_map hkey (index_eq hcandidate)

theorem eq_of_flatMap_answersWith (of_maps : choices.map Choice.map = others.map Choice.map)
    (inStep : ∀ choice ∈ choices, choice.InStep shared)
    (othersInStep : ∀ choice ∈ others, choice.InStep shared)
    (h : choices.flatMap (·.answersWith shared) = others.flatMap (·.answersWith shared)) :
    choices = others := by
  induction choices generalizing others with
  | nil => exact (List.map_eq_nil_iff.mp of_maps.symm).symm
  | cons choice choices ih =>
    obtain ⟨other, others, rfl, of_map, of_maps⟩ := List.map_eq_cons_iff.mp of_maps.symm
    obtain ⟨inStep, allInStep⟩ := List.forall_mem_cons.mp inStep
    obtain ⟨otherInStep, othersInStep⟩ := List.forall_mem_cons.mp othersInStep
    have same_length : (choice.answersWith shared).length = (other.answersWith shared).length := by
      cases shared <;> rfl
    rw [List.flatMap_cons, List.flatMap_cons] at h
    obtain ⟨hanswers, hrest⟩ := List.append_inj h same_length
    rw [Choice.eq_of_answersWith of_map.symm inStep otherInStep hanswers,
      ih of_maps.symm allInStep othersInStep hrest]

/-- The position in the first map is the key that is chosen there. -/
theorem position_of_inStep {first : ValueMap} (head : maps.head? = some first)
    (of_maps : choices.map Choice.map = maps) {position : Fin first.length}
    (inStep : ∀ choice ∈ choices,
      choice.key.val = min position.val (choice.map.length - 1)) :
    ∃ choice, choices.head? = some choice ∧ choice.key.val = position.val := by
  subst of_maps
  rw [List.head?_map, Option.map_eq_some_iff] at head
  obtain ⟨choice, hchoice, rfl⟩ := head
  refine ⟨choice, hchoice, ?_⟩
  have inside := position.isLt
  rw [inStep choice (List.mem_of_head? hchoice)]
  omega

/-- Other choices are made by other draws, and other draws make other choices. -/
theorem Chosen.choices_eq_iff {otherAnswers : List Answer}
    (chosen : Chosen maps choices selection answers)
    (otherChosen : Chosen maps others selection otherAnswers) :
    choices = others ↔ answers = otherAnswers := by
  have same_maps : choices.map Choice.map = others.map Choice.map :=
    chosen.of_maps.trans otherChosen.of_maps.symm
  cases chosen with
  | independent of_maps =>
    cases otherChosen with
    | independent otherMaps =>
      constructor
      · rintro rfl
        rfl
      · intro h
        have unshared (choice : Choice) : choice.InStep none := by simp [Choice.InStep]
        exact eq_of_flatMap_answersWith same_maps (fun choice _ => unshared choice)
          (fun choice _ => unshared choice) h
  | correlated of_maps head position inStep =>
    cases otherChosen with
    | correlated otherMaps otherHead otherPosition otherInStep =>
      obtain rfl := Option.some.inj (head.symm.trans otherHead)
      constructor
      · rintro rfl
        obtain ⟨choice, hchoice, hposition⟩ := position_of_inStep head of_maps inStep
        obtain ⟨_, hother, hotherPosition⟩ := position_of_inStep head of_maps otherInStep
        obtain rfl := Option.some.inj (hchoice.symm.trans hother)
        rw [Fin.ext (hposition.symm.trans hotherPosition)]
      · intro h
        obtain ⟨hfirst, hrest⟩ := List.cons.inj h
        have hposition : position.val = otherPosition.val := by
          rw [← congrArg (·.index.val) hfirst]
        rw [List.map_eq_flatMap, List.map_eq_flatMap] at hrest
        have shared_step (choice : Choice) (h : choice.key.val =
            min position.val (choice.map.length - 1)) : choice.InStep (some position.val) := by
          rintro _ ⟨⟩
          exact h
        refine eq_of_flatMap_answersWith same_maps
          (fun choice hchoice => shared_step choice (inStep choice hchoice)) ?_ hrest
        intro choice hchoice
        exact shared_step choice (hposition ▸ otherInStep choice hchoice)

/-! ## All choices can be made -/

theorem exists_choice (complete : map.IsComplete) (shared : Option Nat) :
    ∃ choice : Choice, choice.map = map ∧ choice.InStep shared := by
  have nonempty := List.length_pos_iff.mpr complete.nonempty
  have hkey : ∃ key : Fin map.length, ∀ index ∈ shared, key.val = min index (map.length - 1) := by
    cases shared with
    | none => exact ⟨⟨0, nonempty⟩, by simp⟩
    | some index => exact ⟨⟨_, min_pred_lt index nonempty⟩, by simp⟩
  obtain ⟨key, inStep⟩ := hkey
  have hcandidates := List.length_pos_iff.mpr (complete.candidates _ (List.get_mem map key))
  exact ⟨⟨map, key, ⟨0, hcandidates⟩⟩, rfl, inStep⟩

theorem exists_choices (complete : ∀ map ∈ maps, map.IsComplete) (shared : Option Nat) :
    ∃ choices : List Choice, choices.map Choice.map = maps ∧
      ∀ choice ∈ choices, choice.InStep shared := by
  induction maps with
  | nil => exact ⟨[], rfl, by simp⟩
  | cons map maps ih =>
    obtain ⟨hmap, hmaps⟩ := List.forall_mem_cons.mp complete
    obtain ⟨choice, rfl, inStep⟩ := exists_choice hmap shared
    obtain ⟨choices, rfl, allInStep⟩ := ih hmaps
    exact ⟨choice :: choices, rfl, List.forall_mem_cons.mpr ⟨inStep, allInStep⟩⟩

/-- What is chosen from one map can be chosen along with something from the others. -/
theorem exists_choices_with (complete : ∀ map ∈ maps, map.IsComplete) {choice : Choice} {j : Nat}
    (inStep : choice.InStep shared) (h : maps[j]? = some choice.map) :
    ∃ choices : List Choice, choices.map Choice.map = maps ∧
      (∀ choice ∈ choices, choice.InStep shared) ∧ choices[j]? = some choice := by
  induction maps generalizing j with
  | nil => cases h
  | cons map maps ih =>
    obtain ⟨hmap, hmaps⟩ := List.forall_mem_cons.mp complete
    cases j with
    | zero =>
      obtain rfl := Option.some.inj h
      obtain ⟨choices, rfl, allInStep⟩ := exists_choices hmaps shared
      exact ⟨choice :: choices, rfl, List.forall_mem_cons.mpr ⟨inStep, allInStep⟩, rfl⟩
    | succ j =>
      obtain ⟨first, rfl, firstInStep⟩ := exists_choice hmap shared
      obtain ⟨choices, rfl, allInStep, hget⟩ := ih hmaps h
      exact ⟨first :: choices, rfl, List.forall_mem_cons.mpr ⟨firstInStep, allInStep⟩, hget⟩

end FakeData.Selection

namespace FakeData

open Selection

/-- Selection from complete maps succeeds with every source. It draws a key and a candidate for one
map after the other, or one position and then a candidate for each map, each below the number of
what there is to choose from, and joins the candidates. Every choice within these bounds is made by
a sequence of draws of its own, so every candidate of every key is within reach, unless a shared
position passes the key by. -/
theorem selectValues_makes_choices {maps : List ValueMap} (nonempty : maps ≠ [])
    (complete : ∀ map ∈ maps, map.IsComplete) (selection : Selection) :
    (∀ {σ : Type} [IndexSource σ] (source : σ), ∃ choices,
        Chosen maps choices selection ((selectValues selection maps).answers source) ∧
        ((selectValues selection maps).run source).1 =
          .ok (" ".intercalate (choices.map Choice.value))) ∧
      (∀ choices answers, Chosen maps choices selection answers →
        (selectValues selection maps).answers (Script.ofAnswers answers) = answers ∧
        ((selectValues selection maps).run (Script.ofAnswers answers)).1 =
          .ok (" ".intercalate (choices.map Choice.value))) ∧
      (∀ choices answers others otherAnswers, Chosen maps choices selection answers →
        Chosen maps others selection otherAnswers → (choices = others ↔ answers = otherAnswers)) ∧
      ∀ (choice : Choice) (j : Nat), maps[j]? = some choice.map →
        (selection = .correlated → ∃ first, maps.head? = some first ∧
          ∃ position < first.length, choice.key.val = min position (choice.map.length - 1)) →
        ∃ choices answers, Chosen maps choices selection answers ∧ choices[j]? = some choice := by
  refine ⟨?_, ?_, ?_, ?_⟩
  · intro σ _ source
    exact (ends_selectValues_iff nonempty complete).mp
      (Draw.ends_run (selectValues selection maps) source)
  · intro choices answers chosen
    exact Draw.ends_iff_script.mp
      ((ends_selectValues_iff nonempty complete).mpr ⟨choices, chosen, rfl⟩)
  · intro choices answers others otherAnswers chosen otherChosen
    exact chosen.choices_eq_iff otherChosen
  · intro choice j hmap reached
    cases selection with
    | independent =>
      have unshared : choice.InStep none := by simp [Choice.InStep]
      obtain ⟨choices, of_maps, -, hget⟩ := exists_choices_with complete unshared hmap
      exact ⟨choices, _, .independent of_maps, hget⟩
    | correlated =>
      obtain ⟨first, head, position, inside, hkey⟩ := reached rfl
      have inStep : choice.InStep (some position) := by
        rintro _ ⟨⟩
        exact hkey
      obtain ⟨choices, of_maps, allInStep, hget⟩ := exists_choices_with complete inStep hmap
      have chosen := Chosen.correlated of_maps head ⟨position, inside⟩
        fun choice hchoice => allInStep choice hchoice position rfl
      exact ⟨choices, _, chosen, hget⟩

/-- Two maps of which the second is too short for the second key of the first. -/
def unequalMaps : List ValueMap :=
  [[("male", ["James", "John"]), ("female", ["Mary"])], [("any", ["Smith", "Brown"])]]

/-- The second key is paired with the last one of the shorter map. -/
theorem selectValues_unequalMaps :
    unequalMaps ≠ [] ∧ (∀ map ∈ unequalMaps, map.IsComplete) ∧
      (selectValues .correlated unequalMaps).answers (⟨[1, 0, 1]⟩ : Script) =
        [⟨2, 1⟩, ⟨1, 0⟩, ⟨2, 1⟩] ∧
      ((selectValues .correlated unequalMaps).run (⟨[1, 0, 1]⟩ : Script)).1 =
        .ok (" ".intercalate ["Mary", "Brown"]) := by
  have nonempty : unequalMaps ≠ [] := by decide
  have complete : ∀ map ∈ unequalMaps, map.IsComplete := by
    simp only [unequalMaps, List.forall_mem_cons, List.not_mem_nil, false_implies, implies_true,
      and_true]
    exact ⟨⟨by decide, by decide⟩, ⟨by decide, by decide⟩⟩
  let female : Choice := ⟨[("male", ["James", "John"]), ("female", ["Mary"])], ⟨1, by decide⟩,
    ⟨0, by decide⟩⟩
  let any : Choice := ⟨[("any", ["Smith", "Brown"])], ⟨0, by decide⟩, ⟨1, by decide⟩⟩
  have of_maps : [female, any].map Choice.map = unequalMaps := rfl
  have head : unequalMaps.head? = some female.map := rfl
  have inStep : ∀ choice ∈ [female, any], choice.key.val = min 1 (choice.map.length - 1) := by
    decide
  have chosen : Chosen unequalMaps [female, any] .correlated [⟨2, 1⟩, ⟨1, 0⟩, ⟨2, 1⟩] :=
    .correlated of_maps head ⟨1, by decide⟩ inStep
  have law := selectValues_makes_choices nonempty complete .correlated
  exact ⟨nonempty, complete, law.2.1 _ _ chosen⟩

end FakeData
