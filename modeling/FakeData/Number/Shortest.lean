/-!
# Shortest decimals

A positive binary number `m * 2 ^ q` stands for every real number nearer to it than to its
neighbours. Its shortest decimal is a point of that interval on the coarsest decimal grid that
has one; of two such points the nearer is taken. Of two equally near ones, a rule for ties chooses.
-/
namespace FakeData.Number

/-- A whole number of steps of size `10 ^ exponent`. -/
structure Decimal where
  digits : Nat
  exponent : Int
  deriving DecidableEq, Repr

/-- A finite binary number without its sign. `narrowBelow` says that the neighbour below is only
half as far away as the neighbour above. -/
structure Magnitude where
  significand : Nat
  exponent : Int
  narrowBelow : Bool
  deriving DecidableEq, Repr

/-- Which of two equally near points is taken. -/
inductive Tie where
  | toEven
  | up
  deriving DecidableEq, Repr

def Tie.takesLower (tie : Tie) (lower : Nat) : Bool :=
  match tie with
  | .toEven => lower % 2 == 0
  | .up => false

namespace Magnitude

/-- The number of quarter units that an amount of `b` quarters makes on a common scale with the
decimal grid of step `10 ^ e`. -/
def scaled (m : Magnitude) (e : Int) (b : Nat) : Nat :=
  b * Nat.pow 2 (m.exponent - 2).toNat * Nat.pow 10 (-e).toNat

def unit (m : Magnitude) (e : Int) : Nat :=
  Nat.pow 10 e.toNat * Nat.pow 2 (2 - m.exponent).toNat

/-- Whether the grid point rounds to the number. The ends belong to even significands. -/
def holds (m : Magnitude) (e : Int) (point : Nat) : Bool :=
  let place := point * m.unit e
  let low := m.scaled e (4 * m.significand - if m.narrowBelow then 1 else 2)
  let high := m.scaled e (4 * m.significand + 2)
  if m.significand % 2 = 0 then low ≤ place && place ≤ high else low < place && place < high

/-- The point of one grid that stands for the number, if the grid has one. -/
def pointOn? (tie : Tie) (m : Magnitude) (e : Int) : Option Nat :=
  let value := m.scaled e (4 * m.significand)
  let below := value / m.unit e
  let gap := value % m.unit e
  match m.holds e below, m.holds e (below + 1) with
  | true, true =>
    if 2 * gap < m.unit e ∨ (2 * gap = m.unit e ∧ tie.takesLower below) then some below
    else some (below + 1)
  | true, false => some below
  | false, true => some (below + 1)
  | false, false => none

def search (tie : Tie) (m : Magnitude) : Nat → Int → Decimal
  | 0, e => ⟨0, e⟩
  | grids + 1, e =>
    match m.pointOn? tie e with
    | some point => ⟨point, e⟩
    | none => search tie m grids (e - 1)

def coarsest : Int := 309

def gridCount : Nat := 700

def shortest (tie : Tie) (m : Magnitude) : Decimal := m.search tie gridCount coarsest

end Magnitude

end FakeData.Number
