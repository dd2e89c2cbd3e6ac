/-!
# Reading digits

Natural numbers from their digits in some base.
-/
namespace FakeData.Number

def digit? (base : Nat) (c : Char) : Option Nat :=
  let value :=
    if c.isDigit then c.toNat - '0'.toNat
    else if 'a' ≤ c ∧ c ≤ 'z' then c.toNat - 'a'.toNat + 10
    else if 'A' ≤ c ∧ c ≤ 'Z' then c.toNat - 'A'.toNat + 10
    else base
  if value < base then some value else none

/-- The number that the digits spell after those of `value`. -/
def digitsFrom? (base : Nat) : Nat → List Char → Option Nat
  | value, [] => some value
  | value, c :: s => (digit? base c).bind fun d => digitsFrom? base (value * base + d) s

/-- The number that at least one digit spells. -/
def digits? (base : Nat) (s : List Char) : Option Nat :=
  if s = [] then none else digitsFrom? base 0 s

def dropPlus : List Char → List Char
  | '+' :: s => s
  | s => s

/-- The number below `2 ^ 64` that a text spells in base ten. -/
def word? (text : String) : Option UInt64 :=
  (digits? 10 (dropPlus text.toList)).bind fun n => if n < 1 <<< 64 then some (.ofNat n) else none

end FakeData.Number
