/-!
# File paths

Paths are texts with `/` between their components. Joining normalises nothing: `.`, `..` and
doubled slashes stay as they are written.
-/
namespace FakeData.Path

def isAbsolute (path : String) : Bool := path.toList.head? == some '/'

/-- Whether something may follow the path without a further slash. -/
def isOpen (path : String) : Bool :=
  match path.toList.getLast? with
  | none => true
  | some c => c == '/'

/-- The right path inside the left one; an absolute right path stands alone. -/
def join (left right : String) : String :=
  if isAbsolute right then right
  else if isOpen left then left ++ right
  else left ++ "/" ++ right

end FakeData.Path
