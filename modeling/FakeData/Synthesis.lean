import FakeData.Draw.Basic

/-!
# Synthesis

Random texts over lowercase letters and further classes of characters. Besides the characters that
are appended from the whole alphabet, each further class has a moment at which one of its own
characters is inserted. The moments and places depend on the length and the classes only, so a
text is a plan of slots, filled one after the other.
-/
namespace FakeData

namespace Synthesis

def lowercase : List Char :=
  ['a', 'b', 'c', 'd', 'e', 'f', 'g', 'h', 'i', 'j', 'k', 'l', 'm', 'n', 'o', 'p', 'q', 'r', 's',
   't', 'u', 'v', 'w', 'x', 'y', 'z']

def uppercase : List Char :=
  ['A', 'B', 'C', 'D', 'E', 'F', 'G', 'H', 'I', 'J', 'K', 'L', 'M', 'N', 'O', 'P', 'Q', 'R', 'S',
   'T', 'U', 'V', 'W', 'X', 'Y', 'Z']

def digits : List Char :=
  ['0', '1', '2', '3', '4', '5', '6', '7', '8', '9']

def special : List Char :=
  ['$', '#', '&', '*', '{', '}', '[', ']', ',', '=', '-', '(', ')', '.', '+', ';', '/', '!', '%',
   '^', '?', '>', '<', ':', '~', '\x60', '|']

end Synthesis

/-- The classes that a text may use besides lowercase letters. -/
structure CharClasses where
  uppercase : Bool
  digits : Bool
  special : Bool
  deriving DecidableEq, Repr

namespace CharClasses

def lowercaseOnly : CharClasses := ⟨false, false, false⟩

/-- Lowercase letters, and then the further classes in use. -/
def alphabet (classes : CharClasses) : List Char :=
  Synthesis.lowercase ++ (if classes.uppercase then Synthesis.uppercase else []) ++
    (if classes.digits then Synthesis.digits else []) ++
    (if classes.special then Synthesis.special else [])

end CharClasses

namespace Synthesis

def maxLength : Nat := 1 <<< 63 - 1

def excessMessage : String := "capacity overflow"

inductive Pool where
  | whole
  | uppercase
  | digits
  | special
  deriving DecidableEq, Repr

/-- A character that is drawn from a pool and inserted at a place. -/
structure Slot where
  pool : Pool
  place : Nat
  deriving DecidableEq, Repr

def Pool.characters (classes : CharClasses) : Pool → List Char
  | .whole => classes.alphabet
  | .uppercase => Synthesis.uppercase
  | .digits => Synthesis.digits
  | .special => Synthesis.special

theorem Pool.characters_pos (classes : CharClasses) (pool : Pool) :
    0 < (pool.characters classes).length := by
  cases pool <;> simp [characters, CharClasses.alphabet, lowercase, Synthesis.uppercase,
    Synthesis.digits, Synthesis.special]

/-- A special character goes to the front once all but three characters are there. -/
def specialSlots (classes : CharClasses) (length written : Nat) : List Slot :=
  if classes.special ∧ 3 ≤ length ∧ written = length - 3 then [⟨.special, 0⟩] else []

/-- An uppercase letter goes to the middle when a pass starts there. -/
def uppercaseSlots (classes : CharClasses) (length start written : Nat) : List Slot :=
  if classes.uppercase ∧ start = length / 2 ∧ written < length then
    [⟨.uppercase, min (length / 2) written⟩]
  else []

/-- A digit goes to the end when a pass starts before the last character. -/
def digitSlots (classes : CharClasses) (length start written : Nat) : List Slot :=
  if classes.digits ∧ start = length - 1 ∧ written < length then
    [⟨.digits, min (length - 1) written⟩]
  else []

/-- The slots of one pass that starts with so many characters written. A pass that inserts
nothing appends a character of the whole alphabet. -/
def pass (classes : CharClasses) (length start : Nat) : List Slot :=
  let first := specialSlots classes length start
  let second := uppercaseSlots classes length start (start + first.length)
  let third := digitSlots classes length start (start + first.length + second.length)
  match first ++ second ++ third with
  | [] => [⟨.whole, start⟩]
  | slots => slots

def planFrom (classes : CharClasses) (length : Nat) : Nat → Nat → List Slot
  | 0, _ => []
  | passes + 1, start =>
    if start < length then
      let slots := pass classes length start
      slots ++ planFrom classes length passes (start + slots.length)
    else []

/-- The slots of a whole text. Each pass writes something, so there are at most as many passes as
characters. -/
def plan (classes : CharClasses) (length : Nat) : List Slot := planFrom classes length length 0

def insert (text : Array Char) (place : Nat) (c : Char) : Array Char :=
  if h : place ≤ text.size then text.insertIdx place c h else text.push c

def fill (classes : CharClasses) : List Slot → Array Char → Draw (Array Char)
  | [], text => .done text
  | slot :: slots, text =>
    (Draw.pick (slot.pool.characters classes) (slot.pool.characters_pos classes)).andThen fun c =>
      fill classes slots (insert text slot.place c)

end Synthesis

/-- A random text of some length over the classes in use. -/
def synthesize (classes : CharClasses) (length : Nat) : Draw String :=
  (Synthesis.fill classes (Synthesis.plan classes length) #[]).andThen fun text =>
    .done (.ofList text.toList)

end FakeData
