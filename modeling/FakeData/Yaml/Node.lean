import FakeData.Yaml.Mark

/-!
# YAML nodes

What a YAML text holds. A text that breaks off or breaks the rules still has nodes up to there,
and a broken node in the place where reading stopped.
-/
namespace FakeData.Yaml

inductive Node where
  | scalar (mark : Mark) (plain : Bool) (text : String)
  | sequence (mark : Mark) (items : List Node)
  | mapping (mark : Mark) (entries : List (Node × Node))
  | broken

namespace Node

def mark : Node → Mark
  | .scalar mark _ _ => mark
  | .sequence mark _ => mark
  | .mapping mark _ => mark
  | .broken => .start

/-- What stands for a value that is left out. -/
def empty (mark : Mark) : Node := .scalar mark true ""

mutual

def isWhole : Node → Bool
  | .scalar _ _ _ => true
  | .sequence _ items => areWhole items
  | .mapping _ entries => entriesAreWhole entries
  | .broken => false

def areWhole : List Node → Bool
  | [] => true
  | item :: items => item.isWhole && areWhole items

def entriesAreWhole : List (Node × Node) → Bool
  | [] => true
  | (key, value) :: entries => key.isWhole && value.isWhole && entriesAreWhole entries

end

end Node

/-- The root of a text, and whether the text ends properly after it. -/
structure Document where
  root : Node
  closed : Bool

end FakeData.Yaml
