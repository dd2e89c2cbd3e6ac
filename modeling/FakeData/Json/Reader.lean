import FakeData.Json.Lexer

/-!
# Reading JSON documents

One reader with a rule for repeated keys. Under `distinct` an object that writes a key twice is a
fault, found once the second value has been read; under `any` all members are kept. The position
of that fault is after the blank that follows the value, and after the brace that closes the
object if it comes next.
-/
namespace FakeData.Json

inductive KeyRule where
  | distinct
  | any
  deriving DecidableEq, Repr

def KeyRule.refuses (rule : KeyRule) (written : List String) (key : String) : Bool :=
  match rule with
  | .distinct => written.contains key
  | .any => false

/-- The fault of a repeated key, with the text after the second value. -/
def duplicateFault (key : String) (s : List Char) : Fault :=
  match skipSpace s with
  | '}' :: s => .here (.duplicateKey key) s
  | s => .here (.duplicateKey key) s

/-- How a list or an object ends, and the faults at the places where it might. -/
structure Enclosure where
  close : Char
  atEnd : FaultCause
  expected : FaultCause
  deriving DecidableEq, Repr

def Enclosure.list : Enclosure := ⟨']', .endInList, .expectedListEnd⟩

def Enclosure.object : Enclosure := ⟨'}', .endInObject, .expectedObjectEnd⟩

/-- Reads up to the next part of a list or object, and says whether there is one. The part starts
the text that is given; without one, the closing character was read. -/
def Enclosure.next (e : Enclosure) (first : Bool) (s : List Char) :
    Except Fault (Bool × List Char) :=
  match skipSpace s with
  | [] => .error (.peek e.atEnd [])
  | c :: s =>
    if c = e.close then .ok (false, s)
    else if first then .ok (true, c :: s)
    else if c = ',' then
      match skipSpace s with
      | [] => .error (.peek .endInValue [])
      | c :: s => if c = e.close then .error (.peek .trailingComma (c :: s)) else .ok (true, c :: s)
    else .error (.peek e.expected (c :: s))

/-- Reads the items of a list after its opening bracket, up to the closing one. `fuel` bounds
their number, and each takes at least one character. -/
def readItems (item : Reader FaultCause Json) :
    Nat → Bool → List Char → Except Fault (List Json × List Char)
  | 0, _, s => .error (.peek .endInList s)
  | fuel + 1, first, s =>
    match Enclosure.list.next first s with
    | .error fault => .error fault
    | .ok (false, s) => .ok ([], s)
    | .ok (true, s) =>
      match item s with
      | .error fault => .error fault
      | .ok (value, s) =>
        match readItems item fuel false s with
        | .error fault => .error fault
        | .ok (values, s) => .ok (value :: values, s)

def readKey : List Char → Except Fault (String × List Char)
  | [] => .error (.peek .endInValue [])
  | c :: s =>
    if c ≠ '"' then .error (.peek .keyNotString (c :: s))
    else
      match readString s with
      | .error fault => .error fault
      | .ok (key, s) =>
        match skipSpace s with
        | [] => .error (.peek .endInObject [])
        | c :: s => if c = ':' then .ok (key, s) else .error (.peek .expectedColon (c :: s))

/-- Reads the members of an object after its opening brace, up to the closing one, when the given
keys are already written. `fuel` bounds their number, and each takes at least one character. -/
def readMembers (rule : KeyRule) (value : Reader FaultCause Json) :
    Nat → List String → List Char → Except Fault (List (String × Json) × List Char)
  | 0, _, s => .error (.peek .endInObject s)
  | fuel + 1, written, s =>
    match Enclosure.object.next written.isEmpty s with
    | .error fault => .error fault
    | .ok (false, s) => .ok ([], s)
    | .ok (true, s) =>
      match readKey s with
      | .error fault => .error fault
      | .ok (key, s) =>
        match value s with
        | .error fault => .error fault
        | .ok (v, s) =>
          if rule.refuses written key then .error (duplicateFault key s)
          else
            match readMembers rule value fuel (key :: written) s with
            | .error fault => .error fault
            | .ok (members, s) => .ok ((key, v) :: members, s)

/-- Reads a value that holds others through `inner`, or not at all at the greatest depth. -/
def valueWith (rule : KeyRule) (inner : Option (Reader FaultCause Json)) : Reader FaultCause Json :=
  fun s =>
    match skipSpace s with
    | [] => .error (.peek .endInValue [])
    | c :: s =>
      if c = 'n' then (readWord ['u', 'l', 'l'] s).map fun (_, s) => (.null, s)
      else if c = 't' then (readWord ['r', 'u', 'e'] s).map fun (_, s) => (.bool true, s)
      else if c = 'f' then (readWord ['a', 'l', 's', 'e'] s).map fun (_, s) => (.bool false, s)
      else if c = '"' then (readString s).map fun (text, s) => (.string text, s)
      else if c = '-' then (readNumber true s).map fun (n, s) => (.number n, s)
      else if c.isDigit then (readNumber false (c :: s)).map fun (n, s) => (.number n, s)
      else if c = '[' then
        match inner with
        | none => .error (.peek .tooDeep (c :: s))
        | some item =>
          (readItems item (s.length + 1) true s).map fun (items, s) => (.array items, s)
      else if c = '{' then
        match inner with
        | none => .error (.peek .tooDeep (c :: s))
        | some value =>
          (readMembers rule value (s.length + 1) [] s).map fun (members, s) => (.object members, s)
      else .error (.peek .expectedValue (c :: s))

/-- Reads a value with at most so many lists and objects around any part of it. -/
def readValue (rule : KeyRule) : Nat → Reader FaultCause Json
  | 0 => valueWith rule none
  | depth + 1 => valueWith rule (some (readValue rule depth))

def maxDepth : Nat := 127

def read (rule : KeyRule) (text : String) : Except Fault Json :=
  match readValue rule maxDepth text.toList with
  | .error fault => .error fault
  | .ok (value, s) =>
    match skipSpace s with
    | [] => .ok value
    | c :: s => .error (.peek .trailingCharacters (c :: s))

def readDistinct (text : String) : Except Fault Json := read .distinct text

/-- Reads a text in which the last value of a repeated key counts. -/
def readLastWins (text : String) : Except Fault Json := (read .any text).map lastWins

end FakeData.Json
