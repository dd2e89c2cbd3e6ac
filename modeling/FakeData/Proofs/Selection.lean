import FakeData.Proofs.Draw
import FakeData.Proofs.Extraction
import FakeData.Selection

/-!
# Outcomes of a selection

A selection makes one choice for each map, at the shared position where there is one, until a map
turns out to have a defect. Complete maps have none, so from them it always gives a value, and how
often it draws depends on the number of the maps alone.
-/
namespace FakeData.Selection

open Draw (Answer Ends)

variable {shared : Option Nat} {position : Nat} {map : ValueMap} {maps : List ValueMap}
  {answers : List Answer} {selection : Selection} {fault : SchemaFault}

structure Choice where
  map : ValueMap
  key : Fin map.length
  candidate : Fin (map.get key).2.length

namespace Choice

def value (choice : Choice) : String := (choice.map.get choice.key).2.get choice.candidate

def keyAnswer (choice : Choice) : Answer := ⟨choice.map.length, choice.key⟩

def candidateAnswer (choice : Choice) : Answer :=
  ⟨(choice.map.get choice.key).2.length, choice.candidate⟩

/-- The draws of a choice. A shared position leaves only the candidate to be drawn. -/
def answersWith (choice : Choice) : Option Nat → List Answer
  | none => [choice.keyAnswer, choice.candidateAnswer]
  | some _ => [choice.candidateAnswer]

theorem map_ne_nil (choice : Choice) : choice.map ≠ [] := List.length_pos_iff.mp choice.key.pos

theorem candidates_ne_nil (choice : Choice) : (choice.map.get choice.key).2 ≠ [] :=
  List.length_pos_iff.mp choice.candidate.pos

/-- The key is at the shared position, or it is the last one before it. -/
def InStep (shared : Option Nat) (choice : Choice) : Prop :=
  ∀ index ∈ shared, choice.key.val = min index (choice.map.length - 1)

end Choice

/-- What is wrong with a map from which nothing can be chosen, and the draw that was made before it
was seen: none if the map is empty or the position is shared, else that of the key. -/
inductive Defect (shared : Option Nat) : ValueMap → List Answer → SchemaFault → Prop where
  | noAttributes : Defect shared [] [] .noAttributes
  | noCandidates {map : ValueMap} (key : Fin map.length)
      (inStep : ∀ index ∈ shared, key.val = min index (map.length - 1))
      (bare : (map.get key).2 = []) :
      Defect shared map (if shared.isSome then [] else [⟨map.length, key⟩])
        (.noCandidates (map.get key).1)

theorem Defect.not_isComplete (defect : Defect shared map answers fault) : ¬map.IsComplete := by
  intro complete
  cases defect with
  | noAttributes => exact complete.nonempty rfl
  | noCandidates key _ bare => exact complete.candidates _ (List.get_mem map key) bare

/-- One choice was made for each of the maps, by these draws. -/
inductive Picked (shared : Option Nat) (choices : List Choice) :
    List ValueMap → List Answer → Prop where
  | all (inStep : ∀ choice ∈ choices, choice.InStep shared) :
      Picked shared choices (choices.map Choice.map) (choices.flatMap (·.answersWith shared))

/-- Choices were made for the first maps, by these draws, and then came a map with a defect. -/
inductive Stopped (shared : Option Nat) (choices : List Choice) :
    List ValueMap → List Answer → SchemaFault → Prop where
  | atMap (inStep : ∀ choice ∈ choices, choice.InStep shared) {map : ValueMap}
      {last : List Answer} {fault : SchemaFault} (defect : Defect shared map last fault)
      (after : List ValueMap) :
      Stopped shared choices (choices.map Choice.map ++ map :: after)
        (choices.flatMap (·.answersWith shared) ++ last) fault

variable {choices : List Choice}

theorem picked_nil_iff : Picked shared choices [] answers ↔ choices = [] ∧ answers = [] := by
  constructor
  · generalize hmaps : ([] : List ValueMap) = maps
    rintro ⟨-⟩
    obtain rfl := List.map_eq_nil_iff.mp hmaps.symm
    exact ⟨rfl, rfl⟩
  · rintro ⟨rfl, rfl⟩
    exact .all (by simp)

theorem picked_cons_iff : Picked shared choices (map :: maps) answers ↔
    ∃ choice others rest, choices = choice :: others ∧ choice.map = map ∧ choice.InStep shared ∧
      Picked shared others maps rest ∧ answers = choice.answersWith shared ++ rest := by
  constructor
  · generalize hmaps : map :: maps = allMaps
    rintro ⟨inStep⟩
    obtain ⟨choice, others, rfl, rfl, rfl⟩ := List.map_eq_cons_iff.mp hmaps.symm
    obtain ⟨inStep, othersInStep⟩ := List.forall_mem_cons.mp inStep
    exact ⟨choice, others, _, rfl, rfl, inStep, .all othersInStep, List.flatMap_cons⟩
  · rintro ⟨choice, others, rest, rfl, rfl, inStep, ⟨othersInStep⟩, rfl⟩
    exact .all (List.forall_mem_cons.mpr ⟨inStep, othersInStep⟩)

/-- A selection stops at its first map, or it makes a choice there and stops at a later one. -/
theorem stopped_cons_iff : Stopped shared choices (map :: maps) answers fault ↔
    (choices = [] ∧ Defect shared map answers fault) ∨
      ∃ choice others rest, choices = choice :: others ∧ choice.map = map ∧
        choice.InStep shared ∧ Stopped shared others maps rest fault ∧
        answers = choice.answersWith shared ++ rest := by
  constructor
  · generalize hmaps : map :: maps = allMaps
    rintro ⟨inStep, defect, after⟩
    cases choices with
    | nil =>
      obtain ⟨rfl, rfl⟩ := List.cons.inj hmaps
      exact .inl ⟨rfl, defect⟩
    | cons choice others =>
      obtain ⟨rfl, rfl⟩ := List.cons.inj hmaps
      obtain ⟨inStep, othersInStep⟩ := List.forall_mem_cons.mp inStep
      refine .inr ⟨choice, others, _, rfl, rfl, inStep, .atMap othersInStep defect after, ?_⟩
      rw [List.flatMap_cons, List.append_assoc]
  · rintro (⟨rfl, defect⟩ | ⟨choice, others, rest, rfl, rfl, inStep, stopped, rfl⟩)
    · exact .atMap (by simp) defect maps
    · cases stopped with
      | atMap othersInStep defect after =>
        have stopped := Stopped.atMap (List.forall_mem_cons.mpr ⟨inStep, othersInStep⟩) defect after
        rwa [List.flatMap_cons, List.append_assoc] at stopped

/-- Nothing stops a selection from complete maps. -/
theorem Stopped.not_isComplete (stopped : Stopped shared choices maps answers fault) :
    ¬∀ map ∈ maps, map.IsComplete := by
  cases stopped with
  | atMap _ defect after =>
    intro complete
    exact defect.not_isComplete (complete _ (by simp))

/-! ## Outcomes of the parts -/

theorem ends_pickCandidate_iff {entry : String × List String} {result : Except Failure String}
    (nonempty : entry.2 ≠ []) :
    Ends (pickCandidate position entry) answers result ↔
      ∃ i : Fin entry.2.length, answers = [⟨entry.2.length, i⟩] ∧
        result = .ok (entry.2.get i) := by
  rw [pickCandidate, dif_pos (List.length_pos_iff.mpr nonempty)]
  constructor
  · intro h
    obtain ⟨picking, value, rest, rfl, hpick, hrest⟩ := Draw.ends_andThen.mp h
    obtain ⟨rfl, rfl⟩ := Draw.ends_done.mp hrest
    obtain ⟨i, rfl, rfl⟩ := Draw.ends_pick.mp hpick
    exact ⟨i, rfl, rfl⟩
  · rintro ⟨i, rfl, rfl⟩
    exact Draw.ends_andThen.mpr ⟨_, _, [], rfl, Draw.ends_pick.mpr ⟨i, rfl, rfl⟩, .done _⟩

theorem pickCandidate_of_bare {entry : String × List String} (bare : entry.2 = []) :
    pickCandidate position entry =
      .done (.error (.schemaMismatch (mapName position) (.noCandidates entry.1))) := by
  rw [pickCandidate, dif_neg (by simp [bare])]

/-- The attribute is settled by the shared position, or by a draw of its own. -/
theorem ends_pickAttribute_iff {nonempty : 0 < map.length} {entry : String × List String} :
    Ends (pickAttribute shared map nonempty) answers entry ↔
      ∃ key : Fin map.length, entry = map.get key ∧
        (∀ index ∈ shared, key.val = min index (map.length - 1)) ∧
        answers = if shared.isSome then [] else [⟨map.length, key⟩] := by
  cases shared with
  | none =>
    simp only [pickAttribute, Draw.ends_pick]
    constructor
    · rintro ⟨key, hanswers, hentry⟩
      exact ⟨key, hentry, by simp, hanswers⟩
    · rintro ⟨key, hentry, -, hanswers⟩
      exact ⟨key, hanswers, hentry⟩
  | some index =>
    simp only [pickAttribute, Draw.ends_done]
    constructor
    · rintro ⟨hanswers, hentry⟩
      exact ⟨_, hentry, by simp, hanswers⟩
    · rintro ⟨key, rfl, inStep, hanswers⟩
      obtain rfl : key = ⟨min index (map.length - 1), min_pred_lt index nonempty⟩ :=
        Fin.ext (inStep index rfl)
      exact ⟨hanswers, rfl⟩

/-- From one map a choice is made, or its defect is reported. -/
theorem ends_pickValue_iff {result : Except Failure String} :
    Ends (pickValue shared position map) answers result ↔
      (∃ choice : Choice, choice.map = map ∧ choice.InStep shared ∧
        answers = choice.answersWith shared ∧ result = .ok choice.value) ∨
      ∃ fault, Defect shared map answers fault ∧
        result = .error (.schemaMismatch (mapName position) fault) := by
  by_cases nonempty : 0 < map.length
  · rw [pickValue, dif_pos nonempty]
    constructor
    · intro h
      obtain ⟨choosing, entry, picking, rfl, hattribute, hcandidate⟩ := Draw.ends_andThen.mp h
      obtain ⟨key, rfl, inStep, rfl⟩ := ends_pickAttribute_iff.mp hattribute
      by_cases bare : (map.get key).2 = []
      · rw [pickCandidate_of_bare bare, Draw.ends_done] at hcandidate
        obtain ⟨rfl, rfl⟩ := hcandidate
        rw [List.append_nil]
        exact .inr ⟨_, .noCandidates key inStep bare, rfl⟩
      · obtain ⟨i, rfl, rfl⟩ := (ends_pickCandidate_iff bare).mp hcandidate
        refine .inl ⟨⟨map, key, i⟩, rfl, inStep, ?_, rfl⟩
        cases shared <;> rfl
    · rintro (⟨choice, rfl, inStep, rfl, rfl⟩ | ⟨fault, defect, rfl⟩)
      · refine Draw.ends_andThen.mpr ⟨_, _, _, ?_,
          ends_pickAttribute_iff.mpr ⟨choice.key, rfl, inStep, rfl⟩,
          (ends_pickCandidate_iff choice.candidates_ne_nil).mpr ⟨choice.candidate, rfl, rfl⟩⟩
        cases shared <;> rfl
      · cases defect with
        | noAttributes => cases nonempty
        | noCandidates key inStep bare =>
          have hattribute : Ends (pickAttribute shared map nonempty) _ (map.get key) :=
            ends_pickAttribute_iff.mpr ⟨key, rfl, inStep, rfl⟩
          refine Draw.ends_andThen.mpr ⟨_, _, [], (List.append_nil _).symm, hattribute, ?_⟩
          rw [pickCandidate_of_bare bare]
          exact .done _
  · rw [pickValue, dif_neg nonempty, Draw.ends_done]
    obtain rfl : map = [] := List.length_eq_zero_iff.mp (by omega)
    constructor
    · rintro ⟨rfl, rfl⟩
      exact .inr ⟨_, .noAttributes, rfl⟩
    · rintro (⟨choice, of_map, -⟩ | ⟨fault, defect, rfl⟩)
      · exact absurd of_map choice.map_ne_nil
      · cases defect with
        | noAttributes => exact ⟨rfl, rfl⟩
        | noCandidates key => exact key.elim0

/-- Choices are made in turn for all maps, or up to the first defect. -/
theorem ends_pickValues_iff {result : Except Failure (List String)} :
    Ends (pickValues shared position maps) answers result ↔
      (∃ choices, Picked shared choices maps answers ∧
        result = .ok (choices.map Choice.value)) ∨
      ∃ choices fault, Stopped shared choices maps answers fault ∧
        result = .error (.schemaMismatch (mapName (position + choices.length)) fault) := by
  induction maps generalizing position answers result with
  | nil =>
    rw [pickValues, Draw.ends_done]
    constructor
    · rintro ⟨rfl, rfl⟩
      exact .inl ⟨[], picked_nil_iff.mpr ⟨rfl, rfl⟩, rfl⟩
    · rintro (⟨choices, picked, rfl⟩ | ⟨choices, fault, stopped, -⟩)
      · obtain ⟨rfl, rfl⟩ := picked_nil_iff.mp picked
        exact ⟨rfl, rfl⟩
      · exact absurd (by simp) stopped.not_isComplete
  | cons map maps ih =>
    rw [pickValues, Draw.ends_andThen]
    constructor
    · rintro ⟨first, _, rest, rfl, hfirst, hrest⟩
      rcases ends_pickValue_iff.mp hfirst with
        ⟨choice, rfl, inStep, rfl, rfl⟩ | ⟨fault, defect, rfl⟩
      · obtain ⟨others, _, last, rfl, hothers, hlast⟩ := Draw.ends_andThen.mp hrest
        rcases ih.mp hothers with ⟨choices, picked, rfl⟩ | ⟨choices, fault, stopped, rfl⟩
        · obtain ⟨rfl, rfl⟩ := Draw.ends_done.mp hlast
          rw [List.append_nil]
          exact .inl ⟨choice :: choices,
            picked_cons_iff.mpr ⟨choice, choices, _, rfl, rfl, inStep, picked, rfl⟩, rfl⟩
        · obtain ⟨rfl, rfl⟩ := Draw.ends_done.mp hlast
          rw [List.append_nil, Nat.add_right_comm]
          exact .inr ⟨choice :: choices, fault, stopped_cons_iff.mpr
            (.inr ⟨choice, choices, _, rfl, rfl, inStep, stopped, rfl⟩), rfl⟩
      · obtain ⟨rfl, rfl⟩ := Draw.ends_done.mp hrest
        rw [List.append_nil]
        exact .inr ⟨[], fault, stopped_cons_iff.mpr (.inl ⟨rfl, defect⟩), rfl⟩
    · rintro (⟨_, picked, rfl⟩ | ⟨_, fault, stopped, rfl⟩)
      · obtain ⟨choice, choices, rest, rfl, rfl, inStep, others, rfl⟩ := picked_cons_iff.mp picked
        have hfirst : Ends (pickValue shared position choice.map) _ (.ok choice.value) :=
          ends_pickValue_iff.mpr (.inl ⟨choice, rfl, inStep, rfl, rfl⟩)
        have hothers : Ends (pickValues shared (position + 1) maps) rest _ :=
          ih.mpr (.inl ⟨choices, others, rfl⟩)
        refine ⟨_, _, _, rfl, hfirst, ?_⟩
        exact Draw.ends_andThen.mpr ⟨_, _, [], (List.append_nil _).symm, hothers, .done _⟩
      · rcases stopped_cons_iff.mp stopped with
          ⟨rfl, defect⟩ | ⟨choice, choices, rest, rfl, rfl, inStep, others, rfl⟩
        · have hfirst : Ends (pickValue shared position map) answers _ :=
            ends_pickValue_iff.mpr (.inr ⟨fault, defect, rfl⟩)
          exact ⟨_, _, [], (List.append_nil _).symm, hfirst, .done _⟩
        · have hfirst : Ends (pickValue shared position choice.map) _ (.ok choice.value) :=
            ends_pickValue_iff.mpr (.inl ⟨choice, rfl, inStep, rfl, rfl⟩)
          have hothers : Ends (pickValues shared (position + 1) maps) rest _ :=
            ih.mpr (.inr ⟨choices, fault, others, rfl⟩)
          rw [Nat.add_right_comm] at hothers
          refine ⟨_, _, _, rfl, hfirst, ?_⟩
          exact Draw.ends_andThen.mpr ⟨_, _, [], (List.append_nil _).symm, hothers, .done _⟩

/-- The shared position is settled, and then choices are made for all maps or up to a defect. -/
theorem ends_selectValues_shared {first : ValueMap} {result : Except Failure String}
    (nonempty : 0 < first.length) (head : maps.head? = some first) :
    Ends (selectValues selection maps) answers result ↔
      ∃ sharing shared picking, Ends (sharedPosition selection first nonempty) sharing shared ∧
        answers = sharing ++ picking ∧
        ((∃ choices, Picked shared choices maps picking ∧
            result = .ok (" ".intercalate (choices.map Choice.value))) ∨
          ∃ choices fault, Stopped shared choices maps picking fault ∧
            result = .error (.schemaMismatch (mapName choices.length) fault)) := by
  obtain ⟨others, rfl⟩ := List.head?_eq_some_iff.mp head
  simp only [selectValues, dif_pos nonempty]
  constructor
  · intro h
    obtain ⟨sharing, shared, rest, rfl, hsharing, hrest⟩ := Draw.ends_andThen.mp h
    obtain ⟨picking, _, last, rfl, hpicking, hlast⟩ := Draw.ends_andThen.mp hrest
    obtain ⟨rfl, rfl⟩ := Draw.ends_done.mp hlast
    rw [List.append_nil]
    refine ⟨sharing, shared, picking, hsharing, rfl, ?_⟩
    rcases ends_pickValues_iff.mp hpicking with
      ⟨choices, picked, rfl⟩ | ⟨choices, fault, stopped, rfl⟩
    · exact .inl ⟨choices, picked, rfl⟩
    · rw [Nat.zero_add]
      exact .inr ⟨choices, fault, stopped, rfl⟩
  · rintro ⟨sharing, shared, picking, hsharing, rfl, outcome⟩
    have hpicking : ∃ values, result = joinValues values ∧
        Ends (pickValues shared 0 (first :: others)) picking values := by
      rcases outcome with ⟨choices, picked, rfl⟩ | ⟨choices, fault, stopped, rfl⟩
      · exact ⟨_, rfl, ends_pickValues_iff.mpr (.inl ⟨choices, picked, rfl⟩)⟩
      · refine ⟨.error _, rfl, ends_pickValues_iff.mpr (.inr ⟨choices, fault, stopped, ?_⟩)⟩
        rw [Nat.zero_add]
    obtain ⟨values, rfl, hpicking⟩ := hpicking
    refine Draw.ends_andThen.mpr ⟨_, _, _, rfl, hsharing, ?_⟩
    exact Draw.ends_andThen.mpr ⟨_, _, [], (List.append_nil _).symm, hpicking, .done _⟩

/-- From complete maps one choice is made for each. -/
theorem ends_selectValues_complete {first : ValueMap} {result : Except Failure String}
    (nonempty : 0 < first.length) (head : maps.head? = some first)
    (complete : ∀ map ∈ maps, map.IsComplete) :
    Ends (selectValues selection maps) answers result ↔
      ∃ (sharing : List Answer) (shared : Option Nat) (choices : List Choice),
        Ends (sharedPosition selection first nonempty) sharing shared ∧
        choices.map Choice.map = maps ∧ (∀ choice ∈ choices, choice.InStep shared) ∧
        answers = sharing ++ choices.flatMap (·.answersWith shared) ∧
        result = .ok (" ".intercalate (choices.map Choice.value)) := by
  rw [ends_selectValues_shared nonempty head]
  constructor
  · rintro ⟨sharing, shared, picking, hsharing, rfl, outcome⟩
    rcases outcome with ⟨choices, ⟨inStep⟩, rfl⟩ | ⟨choices, fault, stopped, rfl⟩
    · exact ⟨sharing, shared, choices, hsharing, rfl, inStep, rfl, rfl⟩
    · exact absurd complete stopped.not_isComplete
  · rintro ⟨sharing, shared, choices, hsharing, rfl, inStep, rfl, rfl⟩
    exact ⟨sharing, shared, _, hsharing, rfl, .inl ⟨choices, .all inStep, rfl⟩⟩

/-! ## Candidates and numbers of draws -/

def attributeDraws (shared : Option Nat) : Nat := if shared.isSome then 0 else 1

@[simp] theorem attributeDraws_none : attributeDraws none = 1 := rfl

@[simp] theorem attributeDraws_some (index : Nat) : attributeDraws (some index) = 0 := rfl

/-- The entry is one of the map, and the one at the shared position or the last one before it. -/
def IsEntry (shared : Option Nat) (map : ValueMap) (entry : String × List String) : Prop :=
  entry ∈ map ∧ ∀ index ∈ shared, map[min index (map.length - 1)]? = some entry

def IsCandidate (shared : Option Nat) (map : ValueMap) (value : String) : Prop :=
  ∃ entry, IsEntry shared map entry ∧ value ∈ entry.2

theorem Choice.isCandidate {choice : Choice} (inStep : choice.InStep shared) :
    IsCandidate shared choice.map choice.value := by
  refine ⟨choice.map.get choice.key, ⟨List.get_mem _ _, ?_⟩, List.get_mem _ _⟩
  intro index hindex
  rw [← inStep index hindex]
  exact List.getElem?_eq_getElem _

@[simp] theorem Choice.length_answersWith (choice : Choice) (shared : Option Nat) :
    (choice.answersWith shared).length = attributeDraws shared + 1 := by
  cases shared <;> rfl

def draws : Selection → Nat → Nat
  | .independent, count => 2 * count
  | .correlated, count => count + 1

/-- Correlated selection settles on a position in its first map, and draws it. -/
theorem ends_sharedPosition_correlated {nonempty : 0 < map.length} :
    Ends (sharedPosition .correlated map nonempty) answers shared ↔
      ∃ index : Fin map.length, answers = [⟨map.length, index⟩] ∧ shared = some index.val := by
  rw [sharedPosition, Draw.ends_andThen]
  constructor
  · rintro ⟨asking, index, rest, rfl, hindex, hrest⟩
    obtain ⟨rfl, rfl⟩ := Draw.ends_done.mp hrest
    obtain rfl := Draw.ends_index.mp hindex
    exact ⟨index, rfl, rfl⟩
  · rintro ⟨index, rfl, rfl⟩
    exact ⟨_, index, [], rfl, Draw.ends_index.mpr rfl, .done _⟩

theorem ends_sharedPosition {nonempty : 0 < map.length}
    (h : Ends (sharedPosition selection map nonempty) answers shared) (count : Nat) :
    answers.length + count * (attributeDraws shared + 1) = selection.draws count := by
  cases selection with
  | independent =>
    obtain ⟨rfl, rfl⟩ := Draw.ends_done.mp h
    simp only [List.length_nil, attributeDraws_none, draws]
    omega
  | correlated =>
    obtain ⟨index, rfl, rfl⟩ := ends_sharedPosition_correlated.mp h
    simp only [List.length_cons, List.length_nil, attributeDraws_some, draws]
    omega

/-- The shared position is settled first, and then a candidate of each map is taken. -/
theorem exists_values_of_ends {result : Except Failure String}
    (nonempty : maps ≠ []) (complete : ∀ map ∈ maps, map.IsComplete)
    (h : Ends (selectValues selection maps) answers result) :
    ∃ first hfirst sharing shared values, maps.head? = some first ∧
      Ends (sharedPosition selection first hfirst) sharing shared ∧
      result = .ok (" ".intercalate values) ∧ List.Forall₂ (IsCandidate shared) maps values ∧
      answers.length = sharing.length + maps.length * (attributeDraws shared + 1) := by
  obtain ⟨first, head⟩ := Option.isSome_iff_exists.mp (List.isSome_head?.mpr nonempty)
  have hfirst : 0 < first.length :=
    List.length_pos_iff.mpr (complete first (List.mem_of_head? head)).nonempty
  obtain ⟨sharing, shared, choices, hsharing, rfl, inStep, rfl, rfl⟩ :=
    (ends_selectValues_complete hfirst head complete).mp h
  refine ⟨first, hfirst, sharing, shared, choices.map Choice.value, head, hsharing, rfl, ?_, ?_⟩
  · rw [List.forall₂_map_left_iff, List.forall₂_map_right_iff, List.forall₂_same]
    intro choice hchoice
    exact Choice.isCandidate (inStep choice hchoice)
  · simp

/-- Selection from complete maps cannot fail. -/
theorem ends_selectValues {result : Except Failure String}
    (nonempty : maps ≠ []) (complete : ∀ map ∈ maps, map.IsComplete)
    (h : Ends (selectValues selection maps) answers result) :
    ∃ value, result = .ok value ∧ answers.length = selection.draws maps.length := by
  obtain ⟨first, hfirst, sharing, shared, values, -, hshared, hresult, -, hcount⟩ :=
    exists_values_of_ends nonempty complete h
  exact ⟨_, hresult, hcount.trans (ends_sharedPosition hshared _)⟩

end FakeData.Selection
