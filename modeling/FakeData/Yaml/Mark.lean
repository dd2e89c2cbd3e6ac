/-!
# Marks

Where something stands in a text, and how a message says so.
-/
namespace FakeData.Yaml

/-- A line and a column, both counted from zero, and the number of bytes before it on its line. -/
structure Mark where
  line : Nat
  column : Nat
  offset : Nat
  deriving DecidableEq, Repr

namespace Mark

def start : Mark := ⟨0, 0, 0⟩

def past (mark : Mark) (c : Char) : Mark :=
  ⟨mark.line, mark.column + 1, mark.offset + c.utf8Size⟩

/-- The mark after so many characters of one byte that are no line breaks. -/
def right (mark : Mark) (count : Nat) : Mark :=
  ⟨mark.line, mark.column + count, mark.offset + count⟩

def down (mark : Mark) : Mark := ⟨mark.line + 1, 0, 0⟩

/-- How a message names the mark. The very beginning is not named. -/
def describe (mark : Mark) : String :=
  if mark = start then ""
  else " at line " ++ toString (mark.line + 1) ++ " column " ++ toString (mark.column + 1)

end Mark

end FakeData.Yaml
