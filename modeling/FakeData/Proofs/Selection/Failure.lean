import FakeData.Proofs.Selection

/-!
# Failures of a selection

On maps of any kind a selection fails exactly when its draws lead to a map from which nothing can
be taken. The first such map is named. Nothing has been drawn for it by then but its key, and no
draw was ever asked for among nothing or used to look beyond the end of a list.
-/
namespace FakeData.Selection

open Draw (Answer Ends)

variable {selection : Selection} {shared : Option Nat} {first map : ValueMap}
  {maps : List ValueMap} {sharing answers last : List Answer} {choices : List Choice}
  {choice : Choice} {number : Nat} {fault : SchemaFault}

/-! ## What draws say of a map -/

/-- The position that the draws give for the key in the map of this number. Independent draws come
in pairs, one pair for each map and the key first in it. Correlated draws begin with the position
for all maps, of which shorter maps give their last key. -/
def keyPosition? : Selection → List Answer → Nat → ValueMap → Option Nat
  | .independent, answers, number, _ => answers[2 * number]?.map (·.index.val)
  | .correlated, answers, _, map => answers[0]?.map (min ·.index.val (map.length - 1))

def candidateDraw? : Selection → List Answer → Nat → Option Answer
  | .independent, answers, number => answers[2 * number + 1]?
  | .correlated, answers, number => answers[number + 1]?

/-- The map of this number is empty, or the draws select a key of it that has no candidates. -/
inductive Spoiled (selection : Selection) (maps : List ValueMap) (answers : List Answer)
    (number : Nat) : SchemaFault → Prop where
  | noAttributes (empty : maps[number]? = some []) :
      Spoiled selection maps answers number .noAttributes
  | noCandidates {map : ValueMap} {position : Nat} {entry : String × List String}
      (reached : maps[number]? = some map)
      (key : keyPosition? selection answers number map = some position)
      (at_key : map[position]? = some entry) (bare : entry.2 = []) :
      Spoiled selection maps answers number (.noCandidates entry.1)

/-- What the draws give for a map lies inside it: the position of the key among its keys, and the
index of the candidate among those of that key, for whose number the draw was asked. -/
def DrawnInside (selection : Selection) (answers : List Answer) (number : Nat) (map : ValueMap) :
    Prop :=
  ∀ position, keyPosition? selection answers number map = some position →
    ∃ entry, map[position]? = some entry ∧
      ∀ answer, candidateDraw? selection answers number = some answer →
        answer.bound = entry.2.length ∧ answer.index.val < entry.2.length

def drawsBefore : Selection → Nat → SchemaFault → Nat
  | .correlated, number, _ => 1 + number
  | .independent, number, .noAttributes => 2 * number
  | .independent, number, _ => 2 * number + 1

theorem drawsBefore_independent_le (number : Nat) (fault : SchemaFault) :
    drawsBefore .independent number fault ≤ 2 * number + 1 := by
  cases fault <;> simp [drawsBefore]

theorem Spoiled.exists_map (spoiled : Spoiled selection maps answers number fault) :
    ∃ map, maps[number]? = some map := by
  cases spoiled with
  | noAttributes empty => exact ⟨[], empty⟩
  | noCandidates reached => exact ⟨_, reached⟩

/-! ## Draws of choices -/

/-- The draws of each choice stand together, after those of the choices before it. -/
theorem getElem?_answersWith (h : choices[number]? = some choice) {offset : Nat}
    (inside : offset < attributeDraws shared + 1) :
    (choices.flatMap (·.answersWith shared) ++ last)[number * (attributeDraws shared + 1) +
      offset]? = (choice.answersWith shared)[offset]? := by
  induction choices generalizing number with
  | nil => cases h
  | cons first choices ih =>
    have hlength := first.length_answersWith shared
    rw [List.flatMap_cons, List.append_assoc]
    cases number with
    | zero =>
      obtain rfl := Option.some.inj h
      rw [List.getElem?_append_left (by omega), Nat.zero_mul, Nat.zero_add]
    | succ number =>
      rw [List.getElem?_append_right (by rw [Nat.succ_mul]; omega), hlength, Nat.succ_mul,
        Nat.add_right_comm, Nat.add_sub_cancel]
      exact ih h

/-- The draws give the key and the candidate that were chosen from a map. -/
theorem draws_of_choice {nonempty : 0 < first.length}
    (settled : Ends (sharedPosition selection first nonempty) sharing shared)
    (h : choices[number]? = some choice) (inStep : choice.InStep shared) :
    let answers := sharing ++ (choices.flatMap (·.answersWith shared) ++ last)
    keyPosition? selection answers number choice.map = some choice.key.val ∧
      candidateDraw? selection answers number = some choice.candidateAnswer := by
  intro answers
  cases selection with
  | independent =>
    obtain ⟨rfl, rfl⟩ := Draw.ends_done.mp settled
    have hkey : answers[2 * number]? = some choice.keyAnswer := by
      rw [Nat.mul_comm]
      exact getElem?_answersWith h (show 0 < attributeDraws none + 1 by decide)
    have hcandidate : answers[2 * number + 1]? = some choice.candidateAnswer := by
      rw [Nat.mul_comm]
      exact getElem?_answersWith h (show 1 < attributeDraws none + 1 by decide)
    exact ⟨by rw [keyPosition?, hkey]; rfl, hcandidate⟩
  | correlated =>
    obtain ⟨index, rfl, rfl⟩ := ends_sharedPosition_correlated.mp settled
    have hkey := inStep index rfl
    have hcandidate : (choices.flatMap (·.answersWith (some index.val)) ++ last)[number * 1 + 0]? =
        some choice.candidateAnswer :=
      getElem?_answersWith h (by simp)
    rw [Nat.mul_one, Nat.add_zero] at hcandidate
    exact ⟨by simp [keyPosition?, answers, hkey], hcandidate⟩

/-- No map is at fault from which a choice was made. -/
theorem not_spoiled_of_choice (reached : maps[number]? = some choice.map)
    (key : keyPosition? selection answers number choice.map = some choice.key.val) :
    ¬Spoiled selection maps answers number fault := by
  intro spoiled
  cases spoiled with
  | noAttributes empty =>
    exact choice.map_ne_nil (Option.some.inj (reached.symm.trans empty))
  | noCandidates reached' key' at_key bare =>
    obtain rfl := Option.some.inj (reached.symm.trans reached')
    obtain rfl := Option.some.inj (key.symm.trans key')
    obtain ⟨_, rfl⟩ := List.getElem?_eq_some_iff.mp at_key
    exact choice.candidates_ne_nil bare

theorem drawnInside_of_choice
    (key : keyPosition? selection answers number choice.map = some choice.key.val)
    (candidate : candidateDraw? selection answers number = some choice.candidateAnswer) :
    DrawnInside selection answers number choice.map := by
  intro position hposition
  obtain rfl := Option.some.inj (key.symm.trans hposition)
  refine ⟨choice.map.get choice.key, List.getElem?_eq_getElem _, ?_⟩
  intro answer hanswer
  obtain rfl := Option.some.inj (candidate.symm.trans hanswer)
  exact ⟨rfl, choice.candidate.isLt⟩

/-- Where choices were made the draws stay inside the map, and it is not at fault. -/
theorem sound_of_choices {nonempty : 0 < first.length} {after : List ValueMap}
    (settled : Ends (sharedPosition selection first nonempty) sharing shared)
    (inStep : ∀ choice ∈ choices, choice.InStep shared) (chosen : number < choices.length)
    (reached : (choices.map Choice.map ++ after)[number]? = some map) :
    let answers := sharing ++ (choices.flatMap (·.answersWith shared) ++ last)
    DrawnInside selection answers number map ∧
      ∀ fault, ¬Spoiled selection (choices.map Choice.map ++ after) answers number fault := by
  have hchoice : ∃ choice, choices[number]? = some choice ∧ choice.map = map := by
    rw [List.getElem?_append_left (by rwa [List.length_map]), List.getElem?_map] at reached
    exact Option.map_eq_some_iff.mp reached
  obtain ⟨choice, hchoice, rfl⟩ := hchoice
  obtain ⟨key, candidate⟩ :=
    draws_of_choice settled hchoice (inStep choice (List.mem_of_getElem? hchoice))
  exact ⟨drawnInside_of_choice key candidate, fun _ => not_spoiled_of_choice reached key⟩

/-- If choices were made for all maps, no map is at fault. -/
theorem sound_of_picked {nonempty : 0 < first.length} {picking : List Answer}
    (settled : Ends (sharedPosition selection first nonempty) sharing shared)
    (picked : Picked shared choices maps picking) (reached : maps[number]? = some map) :
    DrawnInside selection (sharing ++ picking) number map ∧
      ∀ fault, ¬Spoiled selection maps (sharing ++ picking) number fault := by
  obtain ⟨inStep⟩ := picked
  obtain ⟨chosen, -⟩ := List.getElem?_eq_some_iff.mp reached
  rw [List.length_map] at chosen
  rw [← List.append_nil (choices.map Choice.map)] at reached ⊢
  rw [← List.append_nil (choices.flatMap (·.answersWith shared))]
  exact sound_of_choices settled inStep chosen reached

/-! ## Draws up to a defect -/

section

variable {nonempty : 0 < first.length} {picking : List Answer}
  (settled : Ends (sharedPosition selection first nonempty) sharing shared)
  (stopped : Stopped shared choices maps picking fault)

include settled stopped

theorem length_of_stopped :
    (sharing ++ picking).length = drawsBefore selection choices.length fault := by
  obtain ⟨-, defect, after⟩ := stopped
  cases selection with
  | independent =>
    obtain ⟨rfl, rfl⟩ := Draw.ends_done.mp settled
    cases defect <;> simp [drawsBefore, Nat.mul_comm]
  | correlated =>
    obtain ⟨index, rfl, rfl⟩ := ends_sharedPosition_correlated.mp settled
    cases defect <;> simp [drawsBefore, Nat.add_comm]

/-- The map where a selection stops is at fault. -/
theorem spoiled_of_stopped : Spoiled selection maps (sharing ++ picking) choices.length fault := by
  obtain ⟨-, defect, after⟩ := stopped
  have reached {map : ValueMap} :
      (choices.map Choice.map ++ map :: after)[choices.length]? = some map := by
    simp
  cases defect with
  | noAttributes => exact .noAttributes reached
  | noCandidates key inStep bare =>
    refine .noCandidates reached ?_ (List.getElem?_eq_getElem key.isLt) bare
    cases selection with
    | independent =>
      obtain ⟨rfl, rfl⟩ := Draw.ends_done.mp settled
      have past : (choices.flatMap (·.answersWith none)).length = 2 * choices.length := by
        simp [Nat.mul_comm]
      simp [keyPosition?, past]
    | correlated =>
      obtain ⟨index, rfl, rfl⟩ := ends_sharedPosition_correlated.mp settled
      simp [keyPosition?, inStep index rfl]

/-- No map before it is at fault. -/
theorem not_spoiled_of_stopped (earlier : number < choices.length) (other : SchemaFault) :
    ¬Spoiled selection maps (sharing ++ picking) number other := by
  intro spoiled
  obtain ⟨map, reached⟩ := spoiled.exists_map
  obtain ⟨inStep, defect, after⟩ := stopped
  exact (sound_of_choices settled inStep earlier reached).2 other spoiled

/-- From the map where a selection stops on, no candidate is drawn. -/
theorem candidateDraw?_of_stopped (later : choices.length ≤ number) :
    candidateDraw? selection (sharing ++ picking) number = none := by
  have hlength := length_of_stopped settled stopped
  cases selection with
  | independent =>
    have hbefore := drawsBefore_independent_le choices.length fault
    exact List.getElem?_eq_none (by omega)
  | correlated =>
    rw [drawsBefore] at hlength
    exact List.getElem?_eq_none (by omega)

theorem position_lt_of_stopped {position : Nat} (later : choices.length ≤ number)
    (reached : maps[number]? = some map) (present : map ≠ [])
    (h : keyPosition? selection (sharing ++ picking) number map = some position) :
    position < map.length := by
  have hlength := length_of_stopped settled stopped
  cases selection with
  | independent =>
    obtain ⟨answer, hanswer, hindex⟩ := Option.map_eq_some_iff.mp h
    obtain ⟨drawn, -⟩ := List.getElem?_eq_some_iff.mp hanswer
    -- Only the draw of a key can follow the pairs of the choices.
    have last_map : number = choices.length := by
      have hbefore := drawsBefore_independent_le choices.length fault
      omega
    subst last_map
    cases spoiled_of_stopped settled stopped with
    | noAttributes empty => exact absurd (Option.some.inj (reached.symm.trans empty)) present
    | noCandidates reached' key at_key =>
      obtain rfl := Option.some.inj (reached.symm.trans reached')
      obtain rfl := Option.some.inj (h.symm.trans key)
      exact (List.getElem?_eq_some_iff.mp at_key).1
  | correlated =>
    obtain ⟨answer, -, rfl⟩ := Option.map_eq_some_iff.mp h
    exact min_pred_lt _ (List.length_pos_iff.mpr present)

theorem drawnInside_of_stopped (reached : maps[number]? = some map) (present : map ≠ []) :
    DrawnInside selection (sharing ++ picking) number map := by
  by_cases chosen : number < choices.length
  · obtain ⟨inStep, defect, after⟩ := stopped
    exact (sound_of_choices settled inStep chosen reached).1
  · intro position hposition
    have later := Nat.le_of_not_lt chosen
    have inside := position_lt_of_stopped settled stopped later reached present hposition
    have undrawn := candidateDraw?_of_stopped settled stopped later
    exact ⟨_, List.getElem?_eq_getElem inside, by simp [undrawn]⟩

end

/-! ## Outcomes on any maps -/

theorem exists_first (present : maps ≠ []) (first_present : maps.head? ≠ some []) :
    ∃ first, first ≠ [] ∧ maps.head? = some first := by
  obtain ⟨first, head⟩ := Option.isSome_iff_exists.mp (List.isSome_head?.mpr present)
  refine ⟨first, ?_, head⟩
  rintro rfl
  exact first_present head

/-- A selection is over at once if there is no first map with an attribute. -/
theorem answers_of_no_first {result : Except Failure String}
    (h : Ends (selectValues selection maps) answers result)
    (no_first : maps = [] ∨ maps.head? = some []) : answers = [] := by
  rcases no_first with rfl | head
  · exact (Draw.ends_done.mp h).1
  · obtain ⟨others, rfl⟩ := List.head?_eq_some_iff.mp head
    exact (Draw.ends_done.mp h).1

theorem drawnInside_nil : DrawnInside selection [] number map := by
  cases selection <;> simp [DrawnInside, keyPosition?]

/-- However a selection ends, its draws stay inside the maps that they are used on. -/
theorem drawnInside_of_ends {result : Except Failure String}
    (h : Ends (selectValues selection maps) answers result) (reached : maps[number]? = some map)
    (present : map ≠ []) : DrawnInside selection answers number map := by
  by_cases no_first : maps = [] ∨ maps.head? = some []
  · obtain rfl := answers_of_no_first h no_first
    exact drawnInside_nil
  · obtain ⟨maps_present, first_present⟩ := not_or.mp no_first
    obtain ⟨first, nonempty, head⟩ := exists_first maps_present first_present
    obtain ⟨sharing, shared, picking, settled, rfl, outcome⟩ :=
      (ends_selectValues_shared (List.length_pos_iff.mpr nonempty) head).mp h
    rcases outcome with ⟨choices, picked, -⟩ | ⟨choices, fault, stopped, -⟩
    · exact (sound_of_picked settled picked reached).1
    · exact drawnInside_of_stopped settled stopped reached present

/-- A selection with a first map gives a value if no map is at fault, and else fails at the first
map that is. -/
theorem value_or_first_fault {result : Except Failure String} (nonempty : first ≠ [])
    (head : maps.head? = some first) (h : Ends (selectValues selection maps) answers result) :
    (∃ value, result = .ok value ∧ ∀ number fault, ¬Spoiled selection maps answers number fault) ∨
      ∃ number fault, result = .error (.schemaMismatch (mapName number) fault) ∧
        Spoiled selection maps answers number fault ∧
        (∀ earlier < number, ∀ other, ¬Spoiled selection maps answers earlier other) ∧
        answers.length = drawsBefore selection number fault := by
  obtain ⟨sharing, shared, picking, settled, rfl, outcome⟩ :=
    (ends_selectValues_shared (List.length_pos_iff.mpr nonempty) head).mp h
  rcases outcome with ⟨choices, picked, rfl⟩ | ⟨choices, fault, stopped, rfl⟩
  · refine .inl ⟨_, rfl, ?_⟩
    intro number fault spoiled
    obtain ⟨map, reached⟩ := spoiled.exists_map
    exact (sound_of_picked settled picked reached).2 fault spoiled
  · exact .inr ⟨choices.length, fault, rfl, spoiled_of_stopped settled stopped,
      fun _ => not_spoiled_of_stopped settled stopped, length_of_stopped settled stopped⟩

end FakeData.Selection

namespace FakeData

open Selection

end FakeData
