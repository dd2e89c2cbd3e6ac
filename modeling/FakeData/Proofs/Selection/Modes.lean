import FakeData.Proofs.Resolution

/-!
# One map in both modes

A single map has nothing to keep in step with. The position that correlated selection draws for all
maps is then the key that independent selection draws for this one, and it needs no clamping. So
both modes are the same computation on every map, and on every request with one path.
-/
namespace FakeData

namespace Selection

variable {position : Nat} {map : ValueMap}

/-- The shared position itself is taken in the map that it was drawn for. -/
theorem pickValue_shared (index : Fin map.length) :
    pickValue (some index.val) position map = pickCandidate position (map.get index) := by
  have unclamped : min index.val (map.length - 1) = index.val := by
    have inside := index.isLt
    omega
  rw [pickValue, dif_pos index.pos]
  simp only [pickAttribute, Draw.andThen, unclamped]

/-- A key of its own is drawn as the shared position would be. -/
theorem pickValue_unshared (nonempty : 0 < map.length) :
    pickValue none position map = (Draw.index map.length nonempty).andThen fun index =>
      pickValue (some index.val) position map := by
  rw [pickValue, dif_pos nonempty]
  simp only [pickAttribute, Draw.pick, Draw.index, Draw.andThen, pickValue_shared]
  rfl

theorem selectValues_singleton (map : ValueMap) :
    selectValues .correlated [map] = selectValues .independent [map] := by
  by_cases nonempty : 0 < map.length
  · simp only [selectValues, dif_pos nonempty, sharedPosition, pickValues,
      pickValue_unshared nonempty, Draw.index, Draw.andThen]
  · simp only [selectValues, dif_neg nonempty]

end Selection

variable {files : Files} {store : DatasetStore} {locale : Locale} {request : String}

/-- A request with one path has one map, if it has any. -/
theorem resolve_of_one_path
    (one_path : ∀ parsed, Request.parse request = .ok parsed → parsed.paths.length = 1) :
    resolve files store locale request .correlated =
      resolve files store locale request .independent := by
  cases accepted : Request.parse request with
  | error fault => simp only [resolve, accepted]
  | ok parsed =>
    cases hmaps : store.valueMaps files locale parsed with
    | error failure => simp only [resolve, accepted, hmaps]
    | ok maps =>
      obtain ⟨hlength, -⟩ := DatasetStore.isComplete_of_valueMaps accepted hmaps
      rw [one_path parsed accepted] at hlength
      obtain ⟨map, rfl⟩ := List.length_eq_one_iff.mp hlength
      simp only [resolve, accepted, hmaps]
      exact Selection.selectValues_singleton map

/-- On a single map, whatever it holds, both modes of selection give the same value or failure, ask
for the same bounds in the same order and leave the source in the same state. So they do when a
request with one path is resolved, and whatever is drawn after it. -/
theorem modes_agree_on_one_path {σ : Type} [IndexSource σ] (source : σ) :
    (∀ map : ValueMap,
      let correlated := selectValues .correlated [map]
      let independent := selectValues .independent [map]
      correlated.run source = independent.run source ∧
        correlated.bounds source = independent.bounds source) ∧
      ∀ (files : Files) (store : DatasetStore) (locale : Locale) (request : String),
        (∀ parsed, Request.parse request = .ok parsed → parsed.paths.length = 1) →
        let correlated := resolve files store locale request .correlated
        let independent := resolve files store locale request .independent
        correlated.run source = independent.run source ∧
          correlated.bounds source = independent.bounds source ∧
          ∀ {α : Type} (later : Except Failure String → Draw α),
            (correlated.andThen later).run source = (independent.andThen later).run source ∧
              (correlated.andThen later).bounds source =
                (independent.andThen later).bounds source := by
  constructor
  · intro map correlated independent
    have same : correlated = independent := Selection.selectValues_singleton map
    rw [same]
    exact ⟨rfl, rfl⟩
  · intro files store locale request one_path correlated independent
    have same : correlated = independent := resolve_of_one_path one_path
    rw [same]
    exact ⟨rfl, rfl, fun _ => ⟨rfl, rfl⟩⟩

end FakeData
