import FakeData.Text.Blank
import FakeData.Text.Pieces

/-!
# Requests

A request names a context and one or more paths inside its dataset:
`context(path|path|...)`. Paths are taken as they are written; whether they lead anywhere is
seen only when the dataset is read.
-/
namespace FakeData

/-- The first rule that a request breaks. -/
inductive RequestFault where
  | missingOpen
  | missingClose
  | emptyContext
  | forbiddenContext
  | emptyExpression
  | trailingText
  | noPaths
  deriving DecidableEq, Repr

def RequestFault.message : RequestFault → String
  | .missingOpen => "missing '('"
  | .missingClose => "missing ')'"
  | .emptyContext => "empty context"
  | .forbiddenContext => "context must not contain path separators or '..'"
  | .emptyExpression => "empty path expression"
  | .trailingText => "unexpected text after ')'"
  | .noPaths => "no paths to resolve"

/-- A text that is no request, and the first rule that it breaks. -/
structure MalformedRequest where
  request : String
  fault : RequestFault
  deriving DecidableEq, Repr

structure Request where
  context : String
  paths : List String
  deriving DecidableEq, Repr

namespace Request

def hasDoubleDot : List Char → Bool
  | '.' :: '.' :: _ => true
  | _ :: cs => hasDoubleDot cs
  | [] => false

/-- The context becomes the name of a directory and of a file, so it must not lead elsewhere. -/
def isForbiddenContext (context : List Char) : Bool :=
  context.contains '/' || context.contains '\\' || hasDoubleDot context

/-- Checks the parts around the parentheses, in the order in which faults are reported. -/
def ofParts (context expression rest : List Char) : Except RequestFault Request :=
  if context = [] then .error .emptyContext
  else if isForbiddenContext context then .error .forbiddenContext
  else if expression = [] then .error .emptyExpression
  else if Text.trimBlanks rest ≠ [] then .error .trailingText
  else .ok ⟨.ofList context, (Text.pieces '|' expression).map .ofList⟩

/-- Reads a request: the context ends at the first `(`, the paths at the first `)` after it. -/
def read (cs : List Char) : Except RequestFault Request :=
  match cs.dropWhile (· != '(') with
  | [] => .error .missingOpen
  | _ :: inner =>
    match inner.dropWhile (· != ')') with
    | [] => .error .missingClose
    | _ :: rest =>
      ofParts (Text.trimBlanks (cs.takeWhile (· != '('))) (inner.takeWhile (· != ')')) rest

/-- Reads the text of a request. A text that is refused is reported as it stands. -/
def parse (text : String) : Except MalformedRequest Request :=
  (read text.toList).mapError (⟨text, ·⟩)

def display (request : Request) : String :=
  request.context ++ "(" ++ "|".intercalate request.paths ++ ")"

end Request

end FakeData
