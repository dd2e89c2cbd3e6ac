import FakeData.FileSystem
import FakeData.Json.Basic
import FakeData.Json.Fault
import FakeData.Request

/-!
# Failures of generation

The ways in which making a value can fail, from the request down to the shape of the dataset.
-/
namespace FakeData

inductive Shape where
  | map
  | sequence
  | string
  deriving DecidableEq, Repr

def Shape.name : Shape → String
  | .map => "map"
  | .sequence => "sequence"
  | .string => "string"

inductive SchemaFault where
  | wrongShape (found : Json) (expected : Shape)
  | noAttributes
  | noCandidates (key : String)

def SchemaFault.message : SchemaFault → String
  | .wrongShape found expected =>
    "invalid type: " ++ found.describe ++ ", expected a " ++ expected.name
  | .noAttributes => "no attributes"
  | .noCandidates key => "attribute '" ++ key ++ "' has no candidates"

/-- Why no value was made. -/
inductive Failure where
  | malformedRequest (request : String) (fault : RequestFault)
  | datasetNotFound (path : String)
  | unreadable (path : String) (fault : ReadFault)
  | malformedDocument (path : String) (cause : Json.FaultCause) (position : Json.Position)
  | missingAttribute (pointer : String)
  | schemaMismatch (place : String) (fault : SchemaFault)

namespace Failure

/-- What went wrong underneath, where a file is to blame. -/
def source? : Failure → Option String
  | .unreadable _ fault => some fault.message
  | .malformedDocument _ cause position => some (cause.message ++ position.describe)
  | _ => none

def kind? : Failure → Option FaultKind
  | .unreadable _ fault => some fault.kind
  | .malformedDocument _ cause _ => some (if cause.isEnd then .unexpectedEnd else .invalidData)
  | _ => none

def message : Failure → String
  | .malformedRequest request fault => "Malformed request '" ++ request ++ "': " ++ fault.message
  | .datasetNotFound path => "Dataset not found: " ++ path
  | .unreadable path fault => "Failed to read dataset " ++ path ++ ": " ++ fault.message
  | .malformedDocument path cause position =>
    "Failed to read dataset " ++ path ++ ": " ++ cause.message ++ position.describe
  | .missingAttribute pointer => "Attribute not found at '" ++ pointer ++ "'"
  | .schemaMismatch place fault => "Schema mismatch at '" ++ place ++ "': " ++ fault.message

end Failure

end FakeData
