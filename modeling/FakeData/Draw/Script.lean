import FakeData.Draw.Basic

/-!
# Scripts

A source that answers from a list of numbers, each reduced by the bound it is asked for. When the
list has run out every answer is zero.
-/
namespace FakeData

structure Script where
  numbers : List Nat
  deriving DecidableEq, Repr

namespace Script

/-- The next number below the bound, and the script after it. -/
def next (script : Script) (bound : Nat) (positive : 0 < bound) : Fin bound × Script :=
  match script.numbers with
  | [] => (⟨0, positive⟩, script)
  | n :: numbers => (⟨n % bound, Nat.mod_lt n positive⟩, ⟨numbers⟩)

instance : IndexSource Script where
  next := next

end Script

end FakeData
