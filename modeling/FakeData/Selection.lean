import FakeData.Dataset
import FakeData.Draw.Basic

/-!
# Selection

One candidate from each of several maps, joined by spaces. Independent selection draws a key for
every map. Correlated selection draws one position for all maps, and takes the last key of a map
that is too short for it, so that maps with parallel keys stay in step.
-/
namespace FakeData

inductive Selection where
  | independent
  | correlated
  deriving DecidableEq, Repr

namespace Selection

def mapName (position : Nat) : String := "value map #" ++ toString position

def pickCandidate (position : Nat) (entry : String × List String) :
    Draw (Except Failure String) :=
  if h : 0 < entry.2.length then (Draw.pick entry.2 h).andThen (.done <| .ok ·)
  else .done (.error (.schemaMismatch (mapName position) (.noCandidates entry.1)))

theorem min_pred_lt (index : Nat) {count : Nat} (nonempty : 0 < count) :
    min index (count - 1) < count := by
  omega

/-- An attribute of one map: the shared position or the last one before it, or a drawn one. -/
def pickAttribute (shared : Option Nat) (map : ValueMap) (nonempty : 0 < map.length) :
    Draw (String × List String) :=
  match shared with
  | some index => .done (map.get ⟨min index (map.length - 1), min_pred_lt index nonempty⟩)
  | none => Draw.pick map nonempty

def pickValue (shared : Option Nat) (position : Nat) (map : ValueMap) :
    Draw (Except Failure String) :=
  if h : 0 < map.length then (pickAttribute shared map h).andThen (pickCandidate position)
  else .done (.error (.schemaMismatch (mapName position) .noAttributes))

/-- A candidate of each map, with the maps counted from `position`. -/
def pickValues (shared : Option Nat) : Nat → List ValueMap → Draw (Except Failure (List String))
  | _, [] => .done (.ok [])
  | position, map :: maps =>
    (pickValue shared position map).andThen fun
      | .error failure => .done (.error failure)
      | .ok value =>
        (pickValues shared (position + 1) maps).andThen fun
          | .error failure => .done (.error failure)
          | .ok values => .done (.ok (value :: values))

/-- The candidates joined by single spaces. -/
def joinValues (values : Except Failure (List String)) : Except Failure String :=
  values.map (" ".intercalate ·)

def sharedPosition (selection : Selection) (first : ValueMap) (nonempty : 0 < first.length) :
    Draw (Option Nat) :=
  match selection with
  | .independent => .done none
  | .correlated => (Draw.index first.length nonempty).andThen fun i => .done (some i.val)

end Selection

/-- One candidate from each map, joined by single spaces. -/
def selectValues (selection : Selection) (maps : List ValueMap) : Draw (Except Failure String) :=
  match maps with
  | [] => .done (.error (.malformedRequest "<no value maps>" .noPaths))
  | first :: _ =>
    if h : 0 < first.length then
      (selection.sharedPosition first h).andThen fun shared =>
        (Selection.pickValues shared 0 maps).andThen (.done <| Selection.joinValues ·)
    else .done (.error (.schemaMismatch (Selection.mapName 0) .noAttributes))

end FakeData
