import FakeData.Dataset
import FakeData.Proofs.Except
import Mathlib.Data.List.Forall2

/-!
# Extracted maps

A pointer gives a map exactly when it addresses the document of that map: a non-empty object of
non-empty lists of strings, whose members are the attributes in their order.
-/
namespace FakeData

namespace ValueMap

def toJson (map : ValueMap) : Json :=
  .object (map.map fun entry => (entry.1, .array (entry.2.map .string)))

/-- The map has an attribute, and each attribute has a candidate. -/
structure IsComplete (map : ValueMap) : Prop where
  nonempty : map ≠ []
  candidates : ∀ entry ∈ map, entry.2 ≠ []

theorem readCandidates_eq_ok_iff {items : List Json} {candidates : List String} :
    readCandidates items = .ok candidates ↔ items = candidates.map .string := by
  induction items generalizing candidates with
  | nil => cases candidates <;> simp [readCandidates]
  | cons item items ih =>
    cases item with
    | string text =>
      simp only [readCandidates, map_eq_ok_iff, ih]
      constructor
      · rintro ⟨others, rfl, rfl⟩
        rfl
      · intro h
        cases candidates with
        | nil => cases h
        | cons candidate others =>
          simp only [List.map_cons, List.cons.injEq, Json.string.injEq] at h
          obtain ⟨rfl, rfl⟩ := h
          exact ⟨others, rfl, rfl⟩
    | _ => cases candidates <;> simp [readCandidates]

theorem readMembers_eq_ok_iff {members : List (String × Json)} {map : ValueMap} :
    readMembers members = .ok map ↔
      members = map.map fun entry => (entry.1, .array (entry.2.map .string)) := by
  induction members generalizing map with
  | nil => cases map <;> simp [readMembers]
  | cons member members ih =>
    obtain ⟨key, value⟩ := member
    cases value with
    | array items =>
      cases hitems : readCandidates items with
      | error fault =>
        simp only [readMembers, hitems, reduceCtorEq, false_iff]
        intro h
        cases map with
        | nil => cases h
        | cons entry map =>
          simp only [List.map_cons, List.cons.injEq, Prod.mk.injEq, Json.array.injEq] at h
          have hread := readCandidates_eq_ok_iff.mpr h.1.2
          rw [hread] at hitems
          cases hitems
      | ok candidates =>
        simp only [readMembers, hitems, map_eq_ok_iff, ih]
        have hcandidates := readCandidates_eq_ok_iff.mp hitems
        constructor
        · rintro ⟨others, rfl, rfl⟩
          rw [hcandidates]
          rfl
        · intro h
          cases map with
          | nil => cases h
          | cons entry map =>
            simp only [List.map_cons, List.cons.injEq, Prod.mk.injEq, Json.array.injEq] at h
            obtain ⟨⟨rfl, hentry⟩, rfl⟩ := h
            have hread := readCandidates_eq_ok_iff.mpr hentry
            rw [hitems, Except.ok.injEq] at hread
            exact ⟨map, rfl, by rw [hread]⟩
    | _ => cases map <;> simp [readMembers]

theorem firstEmpty?_eq_none_iff {map : ValueMap} :
    firstEmpty? map = none ↔ ∀ entry ∈ map, entry.2 ≠ [] := by
  simp [firstEmpty?, List.find?_eq_none]

/-- A node holds a map exactly when it is the document of that map. -/
theorem ofJson_eq_ok_iff {node : Json} {map : ValueMap} :
    ofJson node = .ok map ↔ node = map.toJson ∧ IsComplete map := by
  cases node with
  | object members =>
    simp only [ofJson, toJson, Json.object.injEq, ← readMembers_eq_ok_iff]
    cases hmembers : readMembers members with
    | error fault => simp
    | ok read =>
      cases read with
      | nil =>
        simp only [reduceCtorEq, Except.ok.injEq, false_iff]
        rintro ⟨rfl, complete⟩
        exact complete.nonempty rfl
      | cons entry entries =>
        cases hempty : firstEmpty? (entry :: entries) with
        | none =>
          simp only [hempty, Except.ok.injEq, iff_self_and]
          rintro rfl
          exact ⟨List.cons_ne_nil _ _, firstEmpty?_eq_none_iff.mp hempty⟩
        | some key =>
          simp only [hempty, reduceCtorEq, Except.ok.injEq, false_iff]
          rintro ⟨rfl, complete⟩
          rw [firstEmpty?_eq_none_iff.mpr complete.candidates] at hempty
          cases hempty
  | _ => simp [ofJson, toJson]

end ValueMap

/-- The value is a non-empty object whose members are non-empty lists of strings. -/
def Json.HoldsCandidates : Json → Prop
  | .object members => members ≠ [] ∧
      ∀ member ∈ members, ∃ candidates : List String,
        candidates ≠ [] ∧ member.2 = .array (candidates.map .string)
  | _ => False

theorem ValueMap.holdsCandidates_toJson {map : ValueMap} (complete : map.IsComplete) :
    map.toJson.HoldsCandidates := by
  refine ⟨by simpa using complete.nonempty, ?_⟩
  intro member h
  obtain ⟨entry, hentry, rfl⟩ := List.mem_map.mp h
  exact ⟨entry.2, complete.candidates entry hentry, rfl⟩

/-- The values that hold candidates are the documents of complete maps. -/
theorem Json.HoldsCandidates.exists_map {node : Json} (h : node.HoldsCandidates) :
    ∃ map : ValueMap, node = map.toJson ∧ map.IsComplete := by
  cases node with
  | object members =>
    obtain ⟨nonempty, inside⟩ := h
    have hmap : ∃ map : ValueMap, members = map.map (fun entry => (entry.1,
        Json.array (entry.2.map .string))) ∧ ∀ entry ∈ map, entry.2 ≠ [] := by
      clear nonempty
      induction members with
      | nil => exact ⟨[], rfl, by simp⟩
      | cons member members ih =>
        obtain ⟨⟨candidates, hne, hmember⟩, inside⟩ := List.forall_mem_cons.mp inside
        obtain ⟨map, rfl, hmap⟩ := ih inside
        refine ⟨(member.1, candidates) :: map, ?_, List.forall_mem_cons.mpr ⟨hne, hmap⟩⟩
        rw [List.map_cons, ← hmember]
    obtain ⟨map, rfl, hmap⟩ := hmap
    exact ⟨map, rfl, by simpa using nonempty, hmap⟩
  | _ => cases h

namespace Dataset

variable {dataset : Dataset} {pointer : String}

theorem extract_eq_ok_iff {map : ValueMap} :
    dataset.extract pointer = .ok map ↔
      Json.Pointer.lookup? pointer dataset.root = some map.toJson ∧ map.IsComplete := by
  rw [extract]
  cases Json.Pointer.lookup? pointer dataset.root with
  | none => simp
  | some node =>
    cases node with
    | null => simp [ValueMap.toJson]
    | _ =>
      simp only [Option.some.injEq, ← ValueMap.ofJson_eq_ok_iff]
      split
      · simp [*]
      · simp [*]

/-- A pointer fails because nothing is there, or because the node is no map. -/
theorem extract_eq_error_iff {failure : Failure} :
    dataset.extract pointer = .error failure ↔
      ((Json.Pointer.lookup? pointer dataset.root = none ∨
          Json.Pointer.lookup? pointer dataset.root = some .null) ∧
        failure = .missingAttribute pointer) ∨
      ∃ node fault, Json.Pointer.lookup? pointer dataset.root = some node ∧ node ≠ .null ∧
        ValueMap.ofJson node = .error fault ∧ failure = .schemaMismatch pointer fault := by
  rw [extract]
  cases Json.Pointer.lookup? pointer dataset.root with
  | none => simp [eq_comm]
  | some node =>
    cases node with
    | null => simp [eq_comm]
    | _ =>
      simp only [Option.some.injEq, reduceCtorEq, or_self, false_and, false_or, ne_eq]
      split
      · simp [*]
      · simp [*, eq_comm]

/-- A path can be extracted exactly when it leads to candidates. -/
theorem exists_extract_iff :
    (∃ map, dataset.extract pointer = .ok map) ↔
      ∃ node, Json.Pointer.lookup? pointer dataset.root = some node ∧ node.HoldsCandidates := by
  constructor
  · rintro ⟨map, h⟩
    obtain ⟨hnode, complete⟩ := extract_eq_ok_iff.mp h
    exact ⟨map.toJson, hnode, ValueMap.holdsCandidates_toJson complete⟩
  · rintro ⟨node, hnode, holds⟩
    obtain ⟨map, rfl, complete⟩ := holds.exists_map
    exact ⟨map, extract_eq_ok_iff.mpr ⟨hnode, complete⟩⟩

/-- The maps of several pointers are the maps of each. -/
theorem extractAll_eq_ok_iff {pointers : List String} {maps : List ValueMap} :
    dataset.extractAll pointers = .ok maps ↔
      List.Forall₂ (fun pointer map => dataset.extract pointer = .ok map) pointers maps := by
  induction pointers generalizing maps with
  | nil => cases maps <;> simp [extractAll]
  | cons pointer pointers ih =>
    cases hmap : dataset.extract pointer with
    | error failure => cases maps <;> simp [extractAll, hmap]
    | ok map =>
      simp only [extractAll, hmap, map_eq_ok_iff, ih]
      constructor
      · rintro ⟨others, hothers, rfl⟩
        exact .cons hmap hothers
      · intro h
        cases h with
        | cons hfirst hothers =>
          rw [hmap, Except.ok.injEq] at hfirst
          exact ⟨_, hothers, by rw [hfirst]⟩

/-- The failure of several pointers is that of the first which fails. -/
theorem extractAll_eq_error_iff {pointers : List String} {failure : Failure} :
    dataset.extractAll pointers = .error failure ↔
      ∃ before pointer after, pointers = before ++ pointer :: after ∧
        (∀ earlier ∈ before, ∃ map, dataset.extract earlier = .ok map) ∧
        dataset.extract pointer = .error failure := by
  induction pointers with
  | nil => simp [extractAll]
  | cons first pointers ih =>
    cases hmap : dataset.extract first with
    | error other =>
      simp only [extractAll, hmap, Except.error.injEq]
      constructor
      · rintro rfl
        exact ⟨[], first, pointers, rfl, by simp, hmap⟩
      · rintro ⟨before, pointer, after, hsplit, hbefore, hpointer⟩
        cases before with
        | nil =>
          cases hsplit
          rwa [hmap, Except.error.injEq] at hpointer
        | cons earlier before =>
          cases hsplit
          obtain ⟨map, hearlier⟩ := hbefore _ List.mem_cons_self
          rw [hmap] at hearlier
          cases hearlier
    | ok map =>
      simp only [extractAll, hmap, map_eq_error_iff, ih]
      constructor
      · rintro ⟨before, pointer, after, rfl, hbefore, hpointer⟩
        have hfirst := List.forall_mem_cons.mpr ⟨⟨map, hmap⟩, hbefore⟩
        exact ⟨first :: before, pointer, after, rfl, hfirst, hpointer⟩
      · rintro ⟨before, pointer, after, hsplit, hbefore, hpointer⟩
        cases before with
        | nil =>
          cases hsplit
          rw [hmap] at hpointer
          cases hpointer
        | cons earlier before =>
          cases hsplit
          exact ⟨before, pointer, after, rfl, (List.forall_mem_cons.mp hbefore).2, hpointer⟩

/-- Several pointers give maps exactly when none of them fails. -/
theorem exists_extractAll_iff {pointers : List String} :
    (∃ maps, dataset.extractAll pointers = .ok maps) ↔
      ∀ pointer ∈ pointers, ∃ map, dataset.extract pointer = .ok map := by
  induction pointers with
  | nil => simp [extractAll]
  | cons pointer pointers ih =>
    rw [List.forall_mem_cons, ← ih]
    cases hmap : dataset.extract pointer with
    | error failure => simp [extractAll, hmap]
    | ok map => simp [extractAll, hmap, map_eq_ok_iff]

/-- Extracted maps are complete, and there is one for each pointer. -/
theorem isComplete_of_extractAll {pointers : List String} {maps : List ValueMap}
    (h : dataset.extractAll pointers = .ok maps) :
    maps.length = pointers.length ∧ ∀ map ∈ maps, map.IsComplete := by
  have hmaps := extractAll_eq_ok_iff.mp h
  refine ⟨hmaps.length_eq.symm, ?_⟩
  clear h
  induction hmaps with
  | nil => simp
  | cons hmap _ ih => exact List.forall_mem_cons.mpr ⟨(extract_eq_ok_iff.mp hmap).2, ih⟩

end Dataset

end FakeData
