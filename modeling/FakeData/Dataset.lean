import FakeData.Failure
import FakeData.Json.Pointer
import FakeData.Json.Reader
import FakeData.Locale

/-!
# Datasets

A dataset is a JSON document. A pointer into it addresses a map from attributes to their
candidates, which is taken in the order in which it is written.
-/
namespace FakeData

/-- The candidates of each attribute, in the order of the document. -/
abbrev ValueMap := List (String × List String)

namespace ValueMap

/-- The candidates in a list of values, all of which must be strings. -/
def readCandidates : List Json → Except SchemaFault (List String)
  | [] => .ok []
  | .string text :: items => (readCandidates items).map (text :: ·)
  | item :: _ => .error (.wrongShape item .string)

/-- The attributes in the members of an object, all of which must be lists of strings. -/
def readMembers : List (String × Json) → Except SchemaFault ValueMap
  | [] => .ok []
  | (key, .array items) :: members =>
    match readCandidates items with
    | .error fault => .error fault
    | .ok candidates => (readMembers members).map ((key, candidates) :: ·)
  | (_, value) :: _ => .error (.wrongShape value .sequence)

def firstEmpty? (map : ValueMap) : Option String := (map.find? (·.2.isEmpty)).map (·.1)

/-- The map that a node holds. It has an attribute, and each attribute has a candidate. -/
def ofJson : Json → Except SchemaFault ValueMap
  | .object members =>
    match readMembers members with
    | .error fault => .error fault
    | .ok [] => .error .noAttributes
    | .ok map =>
      match firstEmpty? map with
      | some key => .error (.noCandidates key)
      | none => .ok map
  | value => .error (.wrongShape value .map)

end ValueMap

structure Dataset where
  path : String
  root : Json

namespace Dataset

/-- The document that a text holds, in which no object may repeat a key. -/
def ofText (path text : String) : Except Failure Dataset :=
  match Json.readDistinct text with
  | .ok root => .ok ⟨path, root⟩
  | .error fault => .error (.malformedDocument path fault.cause (.ofLeft text fault.left))

def load (files : Files) (path : String) : Except Failure Dataset :=
  match files.readText path with
  | .ok text => ofText path text
  | .error .missing => .error (.datasetNotFound path)
  | .error fault => .error (.unreadable path fault)

def extract (dataset : Dataset) (pointer : String) : Except Failure ValueMap :=
  match Json.Pointer.lookup? pointer dataset.root with
  | none | some .null => .error (.missingAttribute pointer)
  | some node =>
    match ValueMap.ofJson node with
    | .ok map => .ok map
    | .error fault => .error (.schemaMismatch pointer fault)

/-- One map for each pointer, or the failure of the first that has none. -/
def extractAll (dataset : Dataset) : List String → Except Failure (List ValueMap)
  | [] => .ok []
  | pointer :: pointers =>
    match dataset.extract pointer with
    | .error failure => .error failure
    | .ok map => (dataset.extractAll pointers).map (map :: ·)

end Dataset

structure DatasetStore where
  root : String
  deriving DecidableEq, Repr

namespace DatasetStore

def standardRoot : String := "datasets"

def locate (store : DatasetStore) (locale : Locale) (request : Request) : String :=
  Path.join store.root (locale.datasetFile request.context)

def valueMaps (store : DatasetStore) (files : Files) (locale : Locale) (request : Request) :
    Except Failure (List ValueMap) :=
  match Dataset.load files (store.locate locale request) with
  | .error failure => .error failure
  | .ok dataset => dataset.extractAll request.paths

end DatasetStore

end FakeData
