import FakeData.Draw.Script
import FakeData.Proofs.Json.Parts
import FakeData.Proofs.Json.Spelling
import FakeData.Proofs.Resolution
import FakeData.Provider

/-!
# Values in step

A correlated value is made at one position of all objects that its request addresses. The
position is a place in the text of the dataset, since keys keep the order in which they are
written from the text to the selection. Objects with the same keys in the same order therefore
give candidates of one and the same key.
-/
namespace FakeData

open Json.Pointer (lookup?)
open Selection (IsCandidate)

abbrev Members := List (String × Json)

/-- The candidate is in the list at the position, or in the last list before it. -/
def IsCandidateAt (position : Nat) (members : Members) (candidate : String) : Prop :=
  ∃ (key : String) (candidates : List String), members[min position (members.length - 1)]? =
      some (key, Json.array (candidates.map .string)) ∧ candidate ∈ candidates

def IsCandidateOf (key : String) (members : Members) (candidate : String) : Prop :=
  ∃ candidates : List String,
    (key, Json.array (candidates.map .string)) ∈ members ∧ candidate ∈ candidates

/-- The members are those of the object that the pointer addresses, and they are spelled in one
piece of what spells the document. -/
def IsAddressed (document : Json) (pointer : String) (members : Members) : Prop :=
  lookup? pointer document = some (.object members) ∧
    (Json.object members).tokens <:+: document.tokens

/-- One candidate from each path, all from one position, which is that of a member of the first
addressed object. -/
structure InStep (document : Json) (paths : List String) (objects : List Members)
    (position : Nat) (candidates : List String) : Prop where
  addressed : List.Forall₂ (IsAddressed document) paths objects
  position_lt : ∃ first ∈ objects.head?, position < first.length
  chosen : List.Forall₂ (IsCandidateAt position) objects candidates

variable {position : Nat} {objects : List Members} {candidates keys : List String}

/-- Where all objects have the same keys, the position stands for one of them. -/
theorem forall_candidates_of_same_keys (inside : position < keys.length)
    (same : ∀ members ∈ objects, members.map Prod.fst = keys)
    (chosen : List.Forall₂ (IsCandidateAt position) objects candidates) :
    List.Forall₂ (IsCandidateOf keys[position]) objects candidates := by
  induction chosen with
  | nil => exact .nil
  | @cons members candidate objects candidates hfirst _ ih =>
    obtain ⟨hkeys, same⟩ := List.forall_mem_cons.mp same
    refine .cons ?_ (ih same)
    obtain ⟨key, list, hentry, hcandidate⟩ := hfirst
    have hlength : members.length = keys.length := by rw [← hkeys, List.length_map]
    have hposition : min position (members.length - 1) = position := by omega
    rw [hposition] at hentry
    have hkey : keys[position]? = some key := by
      rw [← hkeys, List.getElem?_map, hentry]
      rfl
    rw [List.getElem?_eq_getElem inside, Option.some.injEq] at hkey
    rw [hkey]
    exact ⟨list, List.mem_of_getElem? hentry, hcandidate⟩

/-- Objects with the same keys in the same order give candidates of one key. -/
theorem InStep.exists_key {document : Json} {paths : List String}
    (h : InStep document paths objects position candidates)
    (same : ∀ members ∈ objects, members.map Prod.fst = keys) :
    ∃ key ∈ keys, List.Forall₂ (IsCandidateOf key) objects candidates := by
  obtain ⟨first, hfirst, hposition⟩ := h.position_lt
  have hkeys := same first (List.mem_of_mem_head? hfirst)
  have inside : position < keys.length := by rwa [← hkeys, List.length_map]
  exact ⟨keys[position], List.getElem_mem inside,
    forall_candidates_of_same_keys inside same h.chosen⟩

/-! ## From the text to the value -/

def ValueMap.members (map : ValueMap) : Members :=
  map.map fun entry => (entry.1, .array (entry.2.map .string))

theorem isCandidateAt_members {map : ValueMap} {value : String}
    (h : IsCandidate (some position) map value) : IsCandidateAt position map.members value := by
  obtain ⟨entry, ⟨-, hentry⟩, hvalue⟩ := h
  refine ⟨entry.1, entry.2, ?_, hvalue⟩
  rw [ValueMap.members, List.length_map, List.getElem?_map, hentry position rfl]
  rfl

theorem isAddressed_members {dataset : Dataset} {pointer : String} {map : ValueMap}
    (h : dataset.extract pointer = .ok map) : IsAddressed dataset.root pointer map.members := by
  obtain ⟨hlookup, -⟩ := Dataset.extract_eq_ok_iff.mp h
  exact ⟨hlookup, (Json.Pointer.partOf_of_lookup? hlookup).isInfix_tokens⟩

/-- The value is read in step from the text of the file. -/
def ReadInStep (files : Files) (path : String) (paths : List String) (value : String) : Prop :=
  ∃ text document objects position candidates, files path = .ok text.toUTF8 ∧
    Json.Spells text document ∧ Json.DistinctKeys document ∧
    InStep document paths objects position candidates ∧ value = " ".intercalate candidates ∧
    ∀ keys, (∀ members ∈ objects, members.map Prod.fst = keys) →
      ∃ key ∈ keys, List.Forall₂ (IsCandidateOf key) objects candidates

variable {σ : Type} [IndexSource σ] {files : Files} {store : DatasetStore} {locale : Locale}
  {source : σ} {value : String}

/-- The maps of the paths are in the order of the paths, and their keys in the order of the text. -/
theorem inStep_of_maps {dataset : Dataset} {paths : List String} {maps : List ValueMap}
    {first : ValueMap} (hmaps : dataset.extractAll paths = .ok maps)
    (hfirst : maps.head? = some first) (hposition : position < first.length)
    (hvalues : List.Forall₂ (IsCandidate (some position)) maps candidates) :
    InStep dataset.root paths (maps.map ValueMap.members) position candidates where
  addressed := by
    rw [List.forall₂_map_right_iff]
    exact (Dataset.extractAll_eq_ok_iff.mp hmaps).imp fun _ _ => isAddressed_members
  position_lt := by
    refine ⟨first.members, by rw [List.head?_map, hfirst]; rfl, ?_⟩
    rwa [ValueMap.members, List.length_map]
  chosen := by
    rw [List.forall₂_map_left_iff]
    exact hvalues.imp fun _ _ => isCandidateAt_members

theorem readInStep_of_resolve {request : String}
    (h : ((resolve files store locale request .correlated).run source).1 = .ok value) :
    ∃ parsed, Request.parse request = .ok parsed ∧
      ReadInStep files (store.locate locale parsed) parsed.paths value := by
  obtain ⟨parsed, text, document, maps, accepted, readable, wellFormed, hmaps, hdraw⟩ :=
    exists_maps_of_servable (servable_of_value h)
  have hvalueMaps := (DatasetStore.valueMaps_of_readable readable wellFormed).trans hmaps
  obtain ⟨-, nonempty, complete⟩ := DatasetStore.isComplete_of_valueMaps accepted hvalueMaps
  have hends := Draw.ends_run (resolve files store locale request .correlated) source
  rw [hdraw] at h hends
  obtain ⟨first, _, sharing, shared, values, hfirst, hsharing, hresult, hvalues, -⟩ :=
    Selection.exists_values_of_ends nonempty complete hends
  obtain ⟨position, -, rfl⟩ := Selection.ends_sharedPosition_correlated.mp hsharing
  rw [h, Except.ok.injEq] at hresult
  obtain ⟨hread, distinct⟩ := Json.readDistinct_eq_ok_iff.mp wellFormed
  have hstep := inStep_of_maps hmaps hfirst position.isLt hvalues
  exact ⟨parsed, accepted, text, document, _, position, values, readable,
    (Json.read_any_iff_spells.mp hread).1, distinct, hstep, hresult,
    fun _ same => hstep.exists_key same⟩

theorem parse_fullNameRequest : Request.parse Provider.fullNameRequest =
    .ok ⟨"name", ["/generator/first_name", "/generator/last_name"]⟩ := by
  decide

/-- What a correlated request resolves to is one candidate from each of its paths, in the order of
the paths and with single spaces between them. There is one position for all paths, a key of the
first addressed object, and shorter objects give their last key. Objects with the same keys in
the same order give candidates of one key. A full name is made in this way from its two paths. -/
theorem correlated_values_in_step (files : Files) (store : DatasetStore) (locale : Locale)
    (source : σ) :
    (∀ request value, ((resolve files store locale request .correlated).run source).1 = .ok value →
      ∃ parsed, Request.parse request = .ok parsed ∧
        ReadInStep files (store.locate locale parsed) parsed.paths value) ∧
    ∀ value, ((Task.fullName.draw files store locale).run source).1 = .ok value →
      ReadInStep files
        (store.locate locale ⟨"name", ["/generator/first_name", "/generator/last_name"]⟩)
        ["/generator/first_name", "/generator/last_name"] value := by
  refine ⟨fun request value => readInStep_of_resolve, ?_⟩
  intro value h
  have hdraw : Task.fullName.draw files store locale =
      resolve files store locale Provider.fullNameRequest .correlated := rfl
  rw [hdraw] at h
  obtain ⟨parsed, accepted, hvalue⟩ := readInStep_of_resolve h
  rw [parse_fullNameRequest, Except.ok.injEq] at accepted
  rwa [← accepted] at hvalue

/-- Three kinds of first names, and two kinds of last names. -/
def unequalNames : String :=
  "\x7b\"generator\":\x7b" ++
    "\"first_name\":\x7b\"f\":[\"Ada\"],\"m\":[\"Bo\",\"Cy\"],\"x\":[\"Kim\"]\x7d," ++
    "\"last_name\":\x7b\"f\":[\"Kos\"],\"m\":[\"Lis\"]\x7d\x7d\x7d"

theorem fullName_unequalNames (selection : Selection) :
    resolve (fun _ => .ok unequalNames.toUTF8) ⟨""⟩ .standard Provider.fullNameRequest selection =
      selectValues selection [[("f", ["Ada"]), ("m", ["Bo", "Cy"]), ("x", ["Kim"])],
        [("f", ["Kos"]), ("m", ["Lis"])]] := by
  have hread : Json.readDistinct unequalNames = .ok (.object [("generator", .object [
      ("first_name", .object [("f", .array [.string "Ada"]),
        ("m", .array [.string "Bo", .string "Cy"]), ("x", .array [.string "Kim"])]),
      ("last_name",
        .object [("f", .array [.string "Kos"]), ("m", .array [.string "Lis"])])])]) := by
    decide +kernel
  exact resolve_of_maps parse_fullNameRequest rfl hread rfl selection

/-- The third first name has no last name in its place, and takes the last one. -/
theorem fullName_unequalNames_in_step :
    let draw := Task.fullName.draw (fun _ => .ok unequalNames.toUTF8) ⟨""⟩ .standard
    (draw.run (⟨[2, 0, 0]⟩ : Script)).1 = .ok "Kim Lis" ∧
      ReadInStep (fun _ => .ok unequalNames.toUTF8) "en/name/us_name.json"
        ["/generator/first_name", "/generator/last_name"] "Kim Lis" := by
  intro draw
  have hvalue : (draw.run (⟨[2, 0, 0]⟩ : Script)).1 = .ok "Kim Lis" := by
    have hdraw : draw = _ := fullName_unequalNames .correlated
    rw [hdraw]
    rfl
  have hpath : DatasetStore.locate ⟨""⟩ .standard
      ⟨"name", ["/generator/first_name", "/generator/last_name"]⟩ = "en/name/us_name.json" := by
    decide
  have hstep := (correlated_values_in_step (fun _ => .ok unequalNames.toUTF8) ⟨""⟩ .standard
    (⟨[2, 0, 0]⟩ : Script)).2 _ hvalue
  rw [hpath] at hstep
  exact ⟨hvalue, hstep⟩

end FakeData
