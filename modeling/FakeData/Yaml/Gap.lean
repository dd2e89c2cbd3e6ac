import FakeData.Yaml.Character

/-!
# Gaps between words

What the white space between two words of a scalar stands for: blanks within a line stand for
themselves, and line breaks are folded, so that one break joins its lines by a space and further
breaks stay.
-/
namespace FakeData.Yaml

/-- The white space since the last word. -/
inductive Gap where
  /-- Blanks on one line. -/
  | blanks (text : List Char)
  /-- At least one line break. -/
  | folded (first : Char) (more : List Char)
  /-- A line break that was escaped, and the breaks after it. -/
  | joined (more : List Char)
  deriving DecidableEq, Repr

namespace Gap

def none : Gap := .blanks []

def isBroken : Gap → Bool
  | .blanks _ => false
  | _ => true

/-- The gap with one more blank; indentation does not count. -/
def addBlank (c : Char) : Gap → Gap
  | .blanks text => .blanks (text ++ [c])
  | gap => gap

/-- The gap with one more line break; blanks before it do not count. -/
def addBreak (c : Char) : Gap → Gap
  | .blanks _ => .folded c []
  | .folded first more => .folded first (more ++ [c])
  | .joined more => .joined (more ++ [c])

def text : Gap → List Char
  | .blanks text => text
  | .folded first more => if first ≠ '\n' then first :: more else if more = [] then [' '] else more
  | .joined more => more

end Gap

end FakeData.Yaml
