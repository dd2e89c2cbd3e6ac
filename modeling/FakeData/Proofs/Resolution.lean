import FakeData.Proofs.Json.DistinctKeys
import FakeData.Proofs.Request
import FakeData.Proofs.Selection
import FakeData.Resolution

/-!
# Stages of a resolution

A request is served exactly when its text is accepted, its dataset is a document without repeated
keys, and every path leads to candidates. Any other request fails with what its first failing
stage says, before anything is drawn; the selection itself never fails.
-/
namespace FakeData

open Json.Pointer (lookup?)

variable {files : Files} {store : DatasetStore} {locale : Locale} {request : String}

/-- The request is accepted, and all that it asks for is there. -/
def Servable (files : Files) (store : DatasetStore) (locale : Locale) (request : String) : Prop :=
  ∃ parsed text document, Request.parse request = .ok parsed ∧
    files (store.locate locale parsed) = .ok text.toUTF8 ∧
    Json.read .any text = .ok document ∧ Json.DistinctKeys document ∧
    ∀ pointer ∈ parsed.paths, ∃ node, lookup? pointer document = some node ∧ node.HoldsCandidates

/-- The failure is that of the first stage which fails. -/
inductive FirstFailure (files : Files) (store : DatasetStore) (locale : Locale) (request : String) :
    Failure → Prop where
  | request {fault : RequestFault} (refused : Request.parse request = .error ⟨request, fault⟩) :
      FirstFailure files store locale request (.malformedRequest request fault)
  | missing {parsed : Request} (accepted : Request.parse request = .ok parsed)
      (absent : files.readText (store.locate locale parsed) = .error .missing) :
      FirstFailure files store locale request (.datasetNotFound (store.locate locale parsed))
  | unreadable {parsed : Request} {fault : ReadFault}
      (accepted : Request.parse request = .ok parsed)
      (refused : files.readText (store.locate locale parsed) = .error fault)
      (present : fault ≠ .missing) :
      FirstFailure files store locale request (.unreadable (store.locate locale parsed) fault)
  | document {parsed : Request} {text : String} {fault : Json.Fault}
      (accepted : Request.parse request = .ok parsed)
      (readable : files (store.locate locale parsed) = .ok text.toUTF8)
      (malformed : Json.readDistinct text = .error fault) :
      FirstFailure files store locale request (.malformedDocument (store.locate locale parsed)
        fault.cause (.ofLeft text fault.left))
  | nothing {parsed : Request} {text : String} {document : Json} {before after : List String}
      {pointer : String} (accepted : Request.parse request = .ok parsed)
      (readable : files (store.locate locale parsed) = .ok text.toUTF8)
      (wellFormed : Json.readDistinct text = .ok document)
      (split : parsed.paths = before ++ pointer :: after)
      (earlier : ∀ pointer ∈ before, ∃ node,
        lookup? pointer document = some node ∧ node.HoldsCandidates)
      (absent : lookup? pointer document = none ∨ lookup? pointer document = some .null) :
      FirstFailure files store locale request (.missingAttribute pointer)
  | schema {parsed : Request} {text : String} {document node : Json} {before after : List String}
      {pointer : String} {fault : SchemaFault} (accepted : Request.parse request = .ok parsed)
      (readable : files (store.locate locale parsed) = .ok text.toUTF8)
      (wellFormed : Json.readDistinct text = .ok document)
      (split : parsed.paths = before ++ pointer :: after)
      (earlier : ∀ pointer ∈ before, ∃ node,
        lookup? pointer document = some node ∧ node.HoldsCandidates)
      (present : lookup? pointer document = some node) (nonnull : node ≠ .null)
      (mismatch : ValueMap.ofJson node = .error fault) :
      FirstFailure files store locale request (.schemaMismatch pointer fault)

/-! ## The two kinds of request -/

theorem DatasetStore.valueMaps_of_readable {parsed : Request} {text : String} {document : Json}
    (readable : files (store.locate locale parsed) = .ok text.toUTF8)
    (wellFormed : Json.readDistinct text = .ok document) :
    store.valueMaps files locale parsed =
      Dataset.extractAll ⟨store.locate locale parsed, document⟩ parsed.paths := by
  have hread := Files.readText_eq_ok_iff.mpr readable
  simp only [valueMaps, Dataset.load, hread, Dataset.ofText, wellFormed]

/-- A request fails at a path once every earlier path leads to candidates. -/
theorem DatasetStore.valueMaps_of_split {parsed : Request} {text : String} {document : Json}
    {before after : List String} {pointer : String} {failure : Failure}
    (readable : files (store.locate locale parsed) = .ok text.toUTF8)
    (wellFormed : Json.readDistinct text = .ok document)
    (split : parsed.paths = before ++ pointer :: after)
    (earlier : ∀ pointer ∈ before, ∃ node,
      lookup? pointer document = some node ∧ node.HoldsCandidates)
    (fails : Dataset.extract ⟨store.locate locale parsed, document⟩ pointer = .error failure) :
    store.valueMaps files locale parsed = .error failure := by
  rw [valueMaps_of_readable readable wellFormed]
  refine Dataset.extractAll_eq_error_iff.mpr ⟨before, pointer, after, split, ?_, fails⟩
  intro pointer h
  exact Dataset.exists_extract_iff.mpr (earlier pointer h)

/-- Before the first failing stage, and at it, nothing is drawn. -/
theorem resolve_of_firstFailure {failure : Failure}
    (h : FirstFailure files store locale request failure) (selection : Selection) :
    resolve files store locale request selection = .done (.error failure) := by
  cases h with
  | request refused => simp only [resolve, refused]
  | missing accepted absent =>
    simp only [resolve, accepted, DatasetStore.valueMaps, Dataset.load, absent]
  | unreadable accepted refused present =>
    simp only [resolve, accepted, DatasetStore.valueMaps, Dataset.load, refused]
  | document accepted readable malformed =>
    have hread := Files.readText_eq_ok_iff.mpr readable
    simp only [resolve, accepted, DatasetStore.valueMaps, Dataset.load, hread, Dataset.ofText,
      malformed]
  | @nothing parsed _ document _ _ pointer accepted readable wellFormed split earlier absent =>
    have fails : Dataset.extract ⟨store.locate locale parsed, document⟩ pointer =
        .error (.missingAttribute pointer) :=
      Dataset.extract_eq_error_iff.mpr (.inl ⟨absent, rfl⟩)
    simp only [resolve, accepted,
      DatasetStore.valueMaps_of_split readable wellFormed split earlier fails]
  | @schema parsed _ document _ _ _ pointer fault accepted readable wellFormed split earlier present
      nonnull mismatch =>
    have fails : Dataset.extract ⟨store.locate locale parsed, document⟩ pointer =
        .error (.schemaMismatch pointer fault) :=
      Dataset.extract_eq_error_iff.mpr (.inr ⟨_, _, present, nonnull, mismatch, rfl⟩)
    simp only [resolve, accepted,
      DatasetStore.valueMaps_of_split readable wellFormed split earlier fails]

/-- The maps of an accepted request are complete, and there is one for each path. -/
theorem DatasetStore.isComplete_of_valueMaps {parsed : Request} {maps : List ValueMap}
    (accepted : Request.parse request = .ok parsed)
    (h : store.valueMaps files locale parsed = .ok maps) :
    maps.length = parsed.paths.length ∧ maps ≠ [] ∧ ∀ map ∈ maps, map.IsComplete := by
  rw [valueMaps] at h
  cases hload : Dataset.load files (store.locate locale parsed) with
  | error failure => simp [hload] at h
  | ok dataset =>
    simp only [hload] at h
    obtain ⟨hlength, complete⟩ := Dataset.isComplete_of_extractAll h
    refine ⟨hlength, ?_, complete⟩
    rw [← List.length_pos_iff, hlength, List.length_pos_iff]
    exact Request.paths_ne_nil accepted

theorem resolve_of_maps {parsed : Request} {text : String} {document : Json}
    {maps : List ValueMap} (accepted : Request.parse request = .ok parsed)
    (readable : files (store.locate locale parsed) = .ok text.toUTF8)
    (wellFormed : Json.readDistinct text = .ok document)
    (hmaps : Dataset.extractAll ⟨store.locate locale parsed, document⟩ parsed.paths = .ok maps)
    (selection : Selection) :
    resolve files store locale request selection = selectValues selection maps := by
  have hvalues := (DatasetStore.valueMaps_of_readable readable wellFormed).trans hmaps
  simp only [resolve, accepted, hvalues]

/-- A servable request comes down to a selection from the maps that its paths address. -/
theorem exists_maps_of_servable (h : Servable files store locale request) :
    ∃ parsed text document maps, Request.parse request = .ok parsed ∧
      files (store.locate locale parsed) = .ok text.toUTF8 ∧
      Json.readDistinct text = .ok document ∧
      Dataset.extractAll ⟨store.locate locale parsed, document⟩ parsed.paths = .ok maps ∧
      ∀ selection, resolve files store locale request selection = selectValues selection maps := by
  obtain ⟨parsed, text, document, accepted, readable, hread, distinct, holds⟩ := h
  have wellFormed := Json.readDistinct_eq_ok_iff.mpr ⟨hread, distinct⟩
  have hextract : ∀ pointer ∈ parsed.paths, ∃ map,
      Dataset.extract ⟨store.locate locale parsed, document⟩ pointer = .ok map := by
    intro pointer hpointer
    exact Dataset.exists_extract_iff.mpr (holds pointer hpointer)
  obtain ⟨maps, hmaps⟩ := Dataset.exists_extractAll_iff.mpr hextract
  exact ⟨parsed, text, document, maps, accepted, readable, wellFormed, hmaps,
    resolve_of_maps accepted readable wellFormed hmaps⟩

/-- These maps are complete, and there is one at least. -/
theorem resolve_of_servable (h : Servable files store locale request) :
    ∃ maps, maps ≠ [] ∧ (∀ map ∈ maps, map.IsComplete) ∧ ∀ selection,
      resolve files store locale request selection = selectValues selection maps := by
  obtain ⟨parsed, text, document, maps, accepted, readable, wellFormed, hmaps, hdraw⟩ :=
    exists_maps_of_servable h
  have hvalues := (DatasetStore.valueMaps_of_readable readable wellFormed).trans hmaps
  obtain ⟨-, nonempty, complete⟩ := DatasetStore.isComplete_of_valueMaps accepted hvalues
  exact ⟨maps, nonempty, complete, hdraw⟩

/-- A request is served or has a first failing stage. -/
theorem servable_or_firstFailure (files : Files) (store : DatasetStore) (locale : Locale)
    (request : String) :
    Servable files store locale request ∨
      ∃ failure, FirstFailure files store locale request failure := by
  cases hparse : Request.parse request with
  | error malformed =>
    obtain ⟨text, fault⟩ := malformed
    obtain ⟨rfl, -⟩ := Request.parse_eq_error_iff_read.mp hparse
    exact .inr ⟨_, .request hparse⟩
  | ok parsed =>
    cases hread : files.readText (store.locate locale parsed) with
    | error fault =>
      by_cases absent : fault = .missing
      · exact .inr ⟨_, .missing hparse (by rw [hread, absent])⟩
      · exact .inr ⟨_, .unreadable hparse hread absent⟩
    | ok text =>
      have readable := Files.readText_eq_ok_iff.mp hread
      cases hdocument : Json.readDistinct text with
      | error fault => exact .inr ⟨_, .document hparse readable hdocument⟩
      | ok document =>
        cases hmaps : Dataset.extractAll ⟨store.locate locale parsed, document⟩ parsed.paths with
        | ok maps =>
          obtain ⟨haccepted, distinct⟩ := Json.readDistinct_eq_ok_iff.mp hdocument
          refine .inl ⟨parsed, text, document, hparse, readable, haccepted, distinct, ?_⟩
          intro pointer hpointer
          have hextract := Dataset.exists_extractAll_iff.mp ⟨maps, hmaps⟩ pointer hpointer
          exact Dataset.exists_extract_iff.mp hextract
        | error failure =>
          obtain ⟨before, pointer, after, split, hbefore, fails⟩ :=
            Dataset.extractAll_eq_error_iff.mp hmaps
          have earlier : ∀ pointer ∈ before, ∃ node,
              lookup? pointer document = some node ∧ node.HoldsCandidates := by
            intro pointer h
            exact Dataset.exists_extract_iff.mp (hbefore pointer h)
          rcases Dataset.extract_eq_error_iff.mp fails with
            ⟨absent, rfl⟩ | ⟨node, fault, present, nonnull, mismatch, rfl⟩
          · exact .inr ⟨_, .nothing hparse readable hdocument split earlier absent⟩
          · exact .inr ⟨_, .schema hparse readable hdocument split earlier present nonnull mismatch⟩

section Runs

variable {σ : Type} [IndexSource σ]

theorem exists_value_of_servable (h : Servable files store locale request) (selection : Selection)
    (source : σ) : ∃ value, ((resolve files store locale request selection).run source).1 =
      .ok value := by
  obtain ⟨maps, nonempty, complete, hdraw⟩ := resolve_of_servable h
  obtain ⟨value, hvalue, -⟩ :=
    Selection.ends_selectValues nonempty complete (Draw.ends_run _ source)
  exact ⟨value, by rw [hdraw, hvalue]⟩

/-- A value comes only from a servable request. -/
theorem servable_of_value {selection : Selection} {source : σ} {value : String}
    (h : ((resolve files store locale request selection).run source).1 = .ok value) :
    Servable files store locale request := by
  rcases servable_or_firstFailure files store locale request with served | ⟨failure, first⟩
  · exact served
  · rw [resolve_of_firstFailure first, Draw.run_done] at h
    cases h

/-- A failure comes only from the first failing stage. -/
theorem firstFailure_of_error {selection : Selection} {source : σ} {failure : Failure}
    (h : ((resolve files store locale request selection).run source).1 = .error failure) :
    FirstFailure files store locale request failure := by
  rcases servable_or_firstFailure files store locale request with served | ⟨other, first⟩
  · obtain ⟨value, hvalue⟩ := exists_value_of_servable served selection source
    rw [hvalue] at h
    cases h
  · rw [resolve_of_firstFailure first, Draw.run_done] at h
    cases h
    exact first

/-- A selection from the maps of an accepted request gives a value, whatever is drawn. -/
theorem selectValues_of_valueMaps {parsed : Request} {maps : List ValueMap}
    (accepted : Request.parse request = .ok parsed)
    (h : store.valueMaps files locale parsed = .ok maps) (selection : Selection) (source : σ) :
    ∃ value, ((selectValues selection maps).run source).1 = .ok value := by
  obtain ⟨-, nonempty, complete⟩ := DatasetStore.isComplete_of_valueMaps accepted h
  obtain ⟨value, hvalue, -⟩ :=
    Selection.ends_selectValues nonempty complete (Draw.ends_run _ source)
  exact ⟨value, hvalue⟩

end Runs

/-- No first failure is one that a selection reports. -/
theorem FirstFailure.ne_selection {failure : Failure}
    (h : FirstFailure files store locale request failure) :
    (∀ text, failure ≠ .malformedRequest text .noPaths) ∧
      ∀ position fault, failure ≠ .schemaMismatch (Selection.mapName position) fault := by
  cases h with
  | request refused =>
    refine ⟨?_, by simp⟩
    rintro text ⟨⟩
    exact Request.fault_ne_noPaths refused rfl
  | schema _ _ _ _ _ present =>
    refine ⟨by simp, ?_⟩
    rintro position fault ⟨⟩
    have hhead : (Selection.mapName position).toList.head? = some 'v' := by
      simp [Selection.mapName]
    rcases Json.Pointer.head?_of_lookup? present with h | h
    · rw [hhead] at h
      cases h
    · rw [hhead] at h
      cases h
  | _ => simp

/-- A request gives a value exactly when it is servable. Otherwise its failure is that of its first
failing stage, nothing was drawn, and it is no failure of the selection, which cannot fail on the
maps that reach it. -/
theorem resolve_value_or_first_failure {σ : Type} [IndexSource σ] (files : Files)
    (store : DatasetStore) (locale : Locale) (request : String) (selection : Selection)
    (source : σ) :
    let draw := resolve files store locale request selection
    let outcome := draw.run source
    ((∃ value, outcome.1 = .ok value) ↔ Servable files store locale request) ∧
      (∀ failure, outcome.1 = .error failure ↔
        FirstFailure files store locale request failure) ∧
      (∀ failure, outcome.1 = .error failure →
        outcome.2 = source ∧ draw.bounds source = [] ∧
          (∀ text, failure ≠ .malformedRequest text .noPaths) ∧
          ∀ position fault, failure ≠ .schemaMismatch (Selection.mapName position) fault) ∧
      ∀ parsed maps, Request.parse request = .ok parsed →
        store.valueMaps files locale parsed = .ok maps →
        ∃ value, ((selectValues selection maps).run source).1 = .ok value := by
  intro draw outcome
  refine ⟨⟨?_, ?_⟩, fun failure => ⟨firstFailure_of_error, ?_⟩, ?_, ?_⟩
  · rintro ⟨value, hvalue⟩
    exact servable_of_value hvalue
  · intro served
    exact exists_value_of_servable served selection source
  · intro first
    simp only [outcome, draw, resolve_of_firstFailure first, Draw.run_done]
  · intro failure h
    have first := firstFailure_of_error h
    have hdone : draw = .done (.error failure) := resolve_of_firstFailure first selection
    have hsource : outcome.2 = source := by
      simp only [outcome, hdone, Draw.run_done]
    have hbounds : draw.bounds source = [] := by rw [hdone, Draw.bounds_done]
    exact ⟨hsource, hbounds, first.ne_selection⟩
  · intro parsed maps accepted h
    exact selectValues_of_valueMaps accepted h selection source

end FakeData
