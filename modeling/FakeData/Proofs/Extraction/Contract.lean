import FakeData.Proofs.Extraction

/-!
# The contract of extraction

What a pointer extracts is settled by the node that it addresses: nothing, a map with all members of
the node in their order, or the first place at which the node is not the document of a map.
-/
namespace FakeData

namespace ValueMap

variable {node : Json} {map : ValueMap} {fault : SchemaFault}

def member (entry : String × List String) : String × Json :=
  (entry.1, .array (entry.2.map .string))

theorem toJson_eq (map : ValueMap) : map.toJson = .object (map.map member) := rfl

/-- The member has the name of the attribute, and a list of just its candidates, of which there is
one at least. -/
structure HoldsEntry (member : String × Json) (entry : String × List String) : Prop where
  name : member.1 = entry.1
  candidates : member.2 = .array (entry.2.map .string)
  nonempty : entry.2 ≠ []

/-- The first place at which a node is not the document of a map. Members are read before it is seen
whether there are any, and candidates before it is seen whether an attribute lacks them. -/
inductive FirstMismatch : Json → SchemaFault → Prop where
  | noObject {node : Json} (other : ∀ members, node ≠ .object members) :
      FirstMismatch node (.wrongShape node .map)
  | noList (before : ValueMap) (key : String) {value : Json} (other : ∀ items, value ≠ .array items)
      (after : List (String × Json)) :
      FirstMismatch (.object (before.map member ++ (key, value) :: after))
        (.wrongShape value .sequence)
  | noText (before : ValueMap) (key : String) (texts : List String) {item : Json}
      (other : ∀ text, item ≠ .string text) (items : List Json) (after : List (String × Json)) :
      FirstMismatch
        (.object (before.map member ++ (key, .array (texts.map .string ++ item :: items)) :: after))
        (.wrongShape item .string)
  | noAttributes : FirstMismatch (.object []) .noAttributes
  | noCandidates {before : ValueMap} (others : ∀ entry ∈ before, entry.2 ≠ []) (key : String)
      (after : ValueMap) : FirstMismatch (toJson (before ++ (key, []) :: after)) (.noCandidates key)

/-! ## Reading up to a mismatch -/

theorem readCandidates_after_texts (texts : List String) {items : List Json}
    (h : readCandidates items = .error fault) :
    readCandidates (texts.map .string ++ items) = .error fault := by
  induction texts with
  | nil => exact h
  | cons text texts ih =>
    rw [List.map_cons, List.cons_append, readCandidates, ih]
    rfl

theorem readMembers_after_entries (map : ValueMap) {members : List (String × Json)}
    (h : readMembers members = .error fault) :
    readMembers (map.map member ++ members) = .error fault := by
  induction map with
  | nil => exact h
  | cons entry map ih =>
    have hcandidates : readCandidates (entry.2.map .string) = .ok entry.2 :=
      readCandidates_eq_ok_iff.mpr rfl
    simp only [List.map_cons, List.cons_append, member, readMembers, hcandidates, ih]
    rfl

theorem readMembers_map_member (map : ValueMap) : readMembers (map.map member) = .ok map :=
  readMembers_eq_ok_iff.mpr rfl

theorem ofJson_of_readMembers {members : List (String × Json)}
    (h : readMembers members = .error fault) : ofJson (.object members) = .error fault := by
  simp only [ofJson, h]

theorem ofJson_of_firstMismatch (mismatch : FirstMismatch node fault) :
    ofJson node = .error fault := by
  cases mismatch with
  | noObject other =>
    cases node with
    | object members => exact absurd rfl (other members)
    | _ => rfl
  | @noList before key value other after =>
    refine ofJson_of_readMembers (readMembers_after_entries before ?_)
    cases value with
    | array items => exact absurd rfl (other items)
    | _ => rfl
  | @noText before key texts item other items after =>
    have hitems : readCandidates (item :: items) = .error (.wrongShape item .string) := by
      cases item with
      | string text => exact absurd rfl (other text)
      | _ => rfl
    refine ofJson_of_readMembers (readMembers_after_entries before ?_)
    simp only [readMembers, readCandidates_after_texts texts hitems]
  | noAttributes => rfl
  | @noCandidates before others key after =>
    have hempty : firstEmpty? (before ++ (key, []) :: after) = some key := by
      rw [firstEmpty?, List.find?_append, List.find?_eq_none.mpr (by simpa using others)]
      rfl
    have present : before ++ (key, []) :: after ≠ [] := by simp
    obtain ⟨entry, map, hmap⟩ := List.exists_cons_of_ne_nil present
    rw [toJson_eq, ofJson, readMembers_map_member]
    rw [hmap] at hempty ⊢
    simp only [hempty]

/-! ## Every node is a map or has a first mismatch -/

/-- Items begin with texts, and end with them or go on with something else. -/
theorem exists_texts (items : List Json) : ∃ (texts : List String) (rest : List Json),
    items = texts.map .string ++ rest ∧
      (rest = [] ∨ ∃ item others, rest = item :: others ∧ ∀ text, item ≠ .string text) := by
  induction items with
  | nil => exact ⟨[], [], rfl, .inl rfl⟩
  | cons item items ih =>
    cases item with
    | string text =>
      obtain ⟨texts, rest, rfl, hrest⟩ := ih
      exact ⟨text :: texts, rest, rfl, hrest⟩
    | _ => exact ⟨[], _, rfl, .inr ⟨_, items, rfl, by simp⟩⟩

/-- Members begin with those of a map. Either there are no others, or the next one is not the member
of an attribute, and is the first mismatch. -/
theorem exists_entries (members : List (String × Json)) : ∃ (map : ValueMap)
    (rest : List (String × Json)), members = map.map member ++ rest ∧
      (rest = [] ∨ ∃ fault, ∀ before : ValueMap,
        FirstMismatch (.object (before.map member ++ rest)) fault) := by
  induction members with
  | nil => exact ⟨[], [], rfl, .inl rfl⟩
  | cons first members ih =>
    obtain ⟨key, value⟩ := first
    cases value with
    | array items =>
      obtain ⟨texts, rest, rfl, rfl | ⟨item, others, rfl, other⟩⟩ := exists_texts items
      · obtain ⟨map, rest, rfl, hrest⟩ := ih
        exact ⟨(key, texts) :: map, rest, by simp [member], hrest⟩
      · refine ⟨[], _, rfl, .inr ⟨_, fun before => .noText before key texts other others members⟩⟩
    | _ => exact ⟨[], _, rfl, .inr ⟨_, fun before => .noList before key (by simp) members⟩⟩

/-- The first attribute without candidates, if there is one. -/
theorem exists_bare (map : ValueMap) : (∀ entry ∈ map, entry.2 ≠ []) ∨
    ∃ before key after, map = before ++ (key, []) :: after ∧ ∀ entry ∈ before, entry.2 ≠ [] := by
  cases hbare : map.find? (·.2.isEmpty) with
  | none => exact .inl (firstEmpty?_eq_none_iff.mp (by rw [firstEmpty?, hbare]; rfl))
  | some entry =>
    obtain ⟨bare, before, after, rfl, others⟩ := List.find?_eq_some_iff_append.mp hbare
    obtain ⟨key, candidates⟩ := entry
    obtain rfl := List.isEmpty_iff.mp bare
    exact .inr ⟨before, key, after, rfl, by simpa using others⟩

theorem map_or_firstMismatch (node : Json) :
    (∃ map : ValueMap, node = map.toJson ∧ map.IsComplete) ∨ ∃ fault, FirstMismatch node fault := by
  cases node with
  | object members =>
    obtain ⟨map, rest, rfl, rfl | ⟨fault, mismatch⟩⟩ := exists_entries members
    · rw [List.append_nil]
      rcases exists_bare map with complete | ⟨before, key, after, rfl, others⟩
      · by_cases nonempty : map = []
        · subst nonempty
          exact .inr ⟨_, .noAttributes⟩
        · exact .inl ⟨map, rfl, nonempty, complete⟩
      · exact .inr ⟨_, .noCandidates others key after⟩
    · exact .inr ⟨fault, mismatch map⟩
  | _ => exact .inr ⟨_, .noObject (by simp)⟩

/-- What is reported of a node is its first mismatch. -/
theorem ofJson_eq_error_iff : ofJson node = .error fault ↔ FirstMismatch node fault := by
  constructor
  · intro h
    rcases map_or_firstMismatch node with ⟨map, hmap⟩ | ⟨other, mismatch⟩
    · rw [ofJson_eq_ok_iff.mpr hmap] at h
      cases h
    · rw [ofJson_of_firstMismatch mismatch, Except.error.injEq] at h
      rwa [h] at mismatch
  · exact ofJson_of_firstMismatch

theorem exists_firstMismatch_iff :
    (∃ fault, FirstMismatch node fault) ↔ ¬node.HoldsCandidates := by
  constructor
  · rintro ⟨fault, mismatch⟩ holds
    obtain ⟨map, hmap⟩ := holds.exists_map
    have hread := ofJson_eq_ok_iff.mpr hmap
    rw [ofJson_of_firstMismatch mismatch] at hread
    cases hread
  · intro lacking
    rcases map_or_firstMismatch node with ⟨map, rfl, complete⟩ | mismatch
    · exact absurd (holdsCandidates_toJson complete) lacking
    · exact mismatch

theorem forall₂_holdsEntry_iff {members : List (String × Json)} :
    List.Forall₂ HoldsEntry members map ↔
      members = map.map member ∧ ∀ entry ∈ map, entry.2 ≠ [] := by
  induction map generalizing members with
  | nil => simp
  | cons entry map ih =>
    rw [List.forall₂_cons_right_iff, List.map_cons, List.forall_mem_cons]
    constructor
    · rintro ⟨⟨name, value⟩, others, ⟨rfl, rfl, nonempty⟩, hothers, rfl⟩
      obtain ⟨rfl, candidates⟩ := ih.mp hothers
      exact ⟨rfl, nonempty, candidates⟩
    · rintro ⟨rfl, nonempty, candidates⟩
      exact ⟨member entry, _, ⟨rfl, rfl, nonempty⟩, ih.mpr ⟨rfl, candidates⟩, rfl⟩

end ValueMap

open Json.Pointer (lookup?)
open ValueMap (HoldsEntry FirstMismatch)

namespace Dataset

variable {dataset : Dataset} {pointer : String}

/-- The map of an object has its members as entries, in their order. -/
theorem extract_eq_ok_iff_members {map : ValueMap} :
    dataset.extract pointer = .ok map ↔
      ∃ members, lookup? pointer dataset.root = some (.object members) ∧ members ≠ [] ∧
        List.Forall₂ HoldsEntry members map := by
  rw [extract_eq_ok_iff, ValueMap.toJson_eq]
  constructor
  · rintro ⟨hnode, complete⟩
    exact ⟨_, hnode, by simpa using complete.nonempty,
      ValueMap.forall₂_holdsEntry_iff.mpr ⟨rfl, complete.candidates⟩⟩
  · rintro ⟨members, hnode, nonempty, hmembers⟩
    obtain ⟨rfl, candidates⟩ := ValueMap.forall₂_holdsEntry_iff.mp hmembers
    exact ⟨hnode, by simpa using nonempty, candidates⟩

theorem extract_eq_missingAttribute_iff {place : String} :
    dataset.extract pointer = .error (.missingAttribute place) ↔
      (lookup? pointer dataset.root = none ∨ lookup? pointer dataset.root = some .null) ∧
        place = pointer := by
  simp [extract_eq_error_iff]

theorem extract_eq_schemaMismatch_iff {place : String} {fault : SchemaFault} :
    dataset.extract pointer = .error (.schemaMismatch place fault) ↔
      ∃ node, lookup? pointer dataset.root = some node ∧ node ≠ .null ∧ FirstMismatch node fault ∧
        place = pointer := by
  simp only [extract_eq_error_iff, reduceCtorEq, and_false, false_or, Failure.schemaMismatch.injEq,
    ValueMap.ofJson_eq_error_iff]
  constructor
  · rintro ⟨node, _, present, nonnull, mismatch, rfl, rfl⟩
    exact ⟨node, present, nonnull, mismatch, rfl⟩
  · rintro ⟨node, present, nonnull, mismatch, rfl⟩
    exact ⟨node, fault, present, nonnull, mismatch, rfl, rfl⟩

/-- A pointer fails to extract if it addresses nothing or a null, and then only as an attribute that
is missing. It gives a map exactly if it addresses a non-empty object of non-empty lists of texts,
and the map then has just these, in the order of the document. From any other node it fails with the
first mismatch there, under its own name. Nothing but the addressed node matters. Several pointers
give their maps in their order, or else the failure of the first that fails. -/
theorem extract_settled_by_node (dataset : Dataset) (pointer : String) :
    let node? := lookup? pointer dataset.root
    (∀ place, dataset.extract pointer = .error (.missingAttribute place) ↔
        (node? = none ∨ node? = some .null) ∧ place = pointer) ∧
      ((∃ map, dataset.extract pointer = .ok map) ↔
        ∃ node, node? = some node ∧ node.HoldsCandidates) ∧
      (∀ map, dataset.extract pointer = .ok map ↔
        ∃ members, node? = some (.object members) ∧ members ≠ [] ∧
          List.Forall₂ HoldsEntry members map) ∧
      ((∃ fault, dataset.extract pointer = .error (.schemaMismatch pointer fault)) ↔
        ∃ node, node? = some node ∧ node ≠ .null ∧ ¬node.HoldsCandidates) ∧
      (∀ place fault, dataset.extract pointer = .error (.schemaMismatch place fault) ↔
        ∃ node, node? = some node ∧ node ≠ .null ∧ FirstMismatch node fault ∧ place = pointer) ∧
      (∀ failure, dataset.extract pointer = .error failure →
        failure = .missingAttribute pointer ∨ ∃ fault, failure = .schemaMismatch pointer fault) ∧
      (∀ other : Dataset, lookup? pointer other.root = node? →
        other.extract pointer = dataset.extract pointer) ∧
      (∀ pointers maps, dataset.extractAll pointers = .ok maps ↔
        List.Forall₂ (fun pointer map => dataset.extract pointer = .ok map) pointers maps) ∧
      ∀ pointers failure, dataset.extractAll pointers = .error failure ↔
        ∃ before failing after, pointers = before ++ failing :: after ∧
          (∀ earlier ∈ before, ∃ map, dataset.extract earlier = .ok map) ∧
          dataset.extract failing = .error failure := by
  intro node?
  refine ⟨fun _ => extract_eq_missingAttribute_iff, exists_extract_iff,
    fun _ => extract_eq_ok_iff_members, ?_, fun _ _ => extract_eq_schemaMismatch_iff, ?_, ?_,
    fun _ _ => extractAll_eq_ok_iff, fun _ _ => extractAll_eq_error_iff⟩
  · simp only [extract_eq_schemaMismatch_iff, and_true, ← ValueMap.exists_firstMismatch_iff]
    constructor
    · rintro ⟨fault, node, present, nonnull, mismatch⟩
      exact ⟨node, present, nonnull, fault, mismatch⟩
    · rintro ⟨node, present, nonnull, fault, mismatch⟩
      exact ⟨fault, node, present, nonnull, mismatch⟩
  · intro failure h
    rcases extract_eq_error_iff.mp h with ⟨-, rfl⟩ | ⟨_, fault, -, -, -, rfl⟩
    · exact .inl rfl
    · exact .inr ⟨fault, rfl⟩
  · intro other same
    simp only [extract, same, node?]

end Dataset

end FakeData
