import FakeData.Json.Basic
import FakeData.Json.Fault
import FakeData.Number.Digits

/-!
# Words, numbers and strings of JSON

Readers of the parts of a JSON text that hold no other values. A reader takes the unread
characters and gives what it read with the characters after it, or the fault that it met.
-/
namespace FakeData.Json

/-- A reader of something at the front of a text. -/
abbrev Reader (ε α : Type) := List Char → Except (Located ε) (α × List Char)

def isSpace (c : Char) : Bool := c == ' ' || c == '\n' || c == '\t' || c == '\r'

def skipSpace (s : List Char) : List Char := s.dropWhile isSpace

def readWord : List Char → Reader FaultCause Unit
  | [], s => .ok ((), s)
  | _ :: _, [] => .error (.here .endInValue [])
  | letter :: letters, c :: s =>
    if c = letter then readWord letters s else .error (.peek .expectedIdent (c :: s))

/-! ## Numbers -/

def digitValue (c : Char) : Nat := c.toNat - '0'.toNat

def maxSignificand : Nat := 1 <<< 64 - 1

/-- The digits that were read: a significand, the power of ten it stands for, and whether digits
had to be dropped because the significand is full. -/
structure Digits where
  significand : Nat
  exponent : Int
  full : Bool
  deriving DecidableEq, Repr

def Digits.pushWhole (d : Digits) (c : Char) : Digits :=
  if d.full || maxSignificand < d.significand * 10 + digitValue c then
    ⟨d.significand, d.exponent + 1, true⟩
  else ⟨d.significand * 10 + digitValue c, d.exponent, false⟩

def Digits.pushFraction (d : Digits) (c : Char) : Digits :=
  if d.full || maxSignificand < d.significand * 10 + digitValue c then
    ⟨d.significand, d.exponent, true⟩
  else ⟨d.significand * 10 + digitValue c, d.exponent - 1, false⟩

def pushDigits (push : Digits → Char → Digits) (d : Digits) : List Char → Digits × List Char
  | [] => (d, [])
  | c :: s => if c.isDigit then pushDigits push (push d c) s else (d, c :: s)

/-- A significand divided by a power of ten that no double holds, step by step. -/
def divideFar (value : Float) (exponent : Int) : Float × Int :=
  if exponent < -308 then
    if value == 0 then (value, 0) else divideFar (value / 1e308) (exponent + 308)
  else (value, exponent)
termination_by (-exponent).toNat

/-- The double that the digits stand for, found with one multiplication or division by a power of
ten, or nothing if it is infinite. It is not always the nearest double. -/
def Digits.toFloat? (d : Digits) : Option Float :=
  let value := (UInt64.ofNat d.significand).toFloat
  if 308 < d.exponent then if d.significand = 0 then some 0 else none
  else if 0 ≤ d.exponent then
    let product := value * Float.ofScientific 1 false d.exponent.toNat
    if product.isInf then none else some product
  else
    let (value, exponent) := divideFar value d.exponent
    some (value / Float.ofScientific 1 false (-exponent).toNat)

/-- The double of the digits with the sign, or a fault before the unread characters. -/
def signedDouble (negative : Bool) (value? : Option Float) (unread : List Char) :
    Except Fault (JsonNumber × List Char) :=
  match value? with
  | none => .error (.here .numberOutOfRange unread)
  | some value => .ok (.double (if negative then -value else value).toBits, unread)

def maxExponent : Nat := 1 <<< 31 - 1

/-- Reads the digits of an exponent; an exponent too large to keep gives infinity or zero. -/
def exponentDigits (negative below : Bool) (d : Digits) :
    Nat → List Char → Except Fault (JsonNumber × List Char)
  | power, [] => finish power []
  | power, c :: s =>
    if c.isDigit then
      if maxExponent < power * 10 + digitValue c then
        if d.significand ≠ 0 ∧ ¬below then .error (.here .numberOutOfRange s)
        else signedDouble negative (some 0) (s.dropWhile Char.isDigit)
      else exponentDigits negative below d (power * 10 + digitValue c) s
    else finish power (c :: s)
where
  finish (power : Nat) (unread : List Char) : Except Fault (JsonNumber × List Char) :=
    let shift : Int := if below then -(power : Int) else power
    signedDouble negative ({ d with exponent := d.exponent + shift }).toFloat? unread

def exponentPart (negative : Bool) (d : Digits) (s : List Char) :
    Except Fault (JsonNumber × List Char) :=
  let (below, s) :=
    match s with
    | '+' :: s => (false, s)
    | '-' :: s => (true, s)
    | s => (false, s)
  match s with
  | [] => .error (.here .endInValue [])
  | c :: s =>
    if c.isDigit then exponentDigits negative below d (digitValue c) s
    else .error (.peek .invalidNumber (c :: s))

def afterFraction (negative : Bool) (d : Digits) :
    List Char → Except Fault (JsonNumber × List Char)
  | [] => signedDouble negative d.toFloat? []
  | c :: s =>
    if c = 'e' ∨ c = 'E' then exponentPart negative d s
    else signedDouble negative d.toFloat? (c :: s)

def fractionPart (negative : Bool) (d : Digits) :
    List Char → Except Fault (JsonNumber × List Char)
  | [] => .error (.peek .endInValue [])
  | c :: s =>
    if c.isDigit then
      let (d, s) := pushDigits .pushFraction { d with full := false } (c :: s)
      afterFraction negative d s
    else .error (.peek .invalidNumber (c :: s))

/-- An integer, if it fits its machine word; a negative zero and longer numbers are doubles. -/
def wholeNumber (negative : Bool) (d : Digits) (unread : List Char) :
    Except Fault (JsonNumber × List Char) :=
  if d.full then signedDouble negative d.toFloat? unread
  else if ¬negative then .ok (.integer d.significand, unread)
  else if d.significand = 0 ∨ 1 <<< 63 < d.significand then signedDouble true d.toFloat? unread
  else .ok (.integer (-d.significand), unread)

def afterWhole (negative : Bool) (d : Digits) : List Char → Except Fault (JsonNumber × List Char)
  | [] => wholeNumber negative d []
  | c :: s =>
    if c = '.' then fractionPart negative d s
    else if c = 'e' ∨ c = 'E' then exponentPart negative d s
    else wholeNumber negative d (c :: s)

def readNumber (negative : Bool) : List Char → Except Fault (JsonNumber × List Char)
  | [] => .error (.here .endInValue [])
  | c :: s =>
    if c = '0' then
      match s with
      | [] => afterWhole negative ⟨0, 0, false⟩ []
      | next :: s =>
        if next.isDigit then .error (.peek .invalidNumber (next :: s))
        else afterWhole negative ⟨0, 0, false⟩ (next :: s)
    else if c.isDigit then
      let (d, s) := pushDigits .pushWhole ⟨0, 0, false⟩ (c :: s)
      afterWhole negative d s
    else .error (.peek .invalidNumber (c :: s))

/-! ## Strings -/

def shortEscape? : Char → Option Char
  | '"' => some '"'
  | '\\' => some '\\'
  | '/' => some '/'
  | 'b' => some '\x08'
  | 'f' => some '\x0c'
  | 'n' => some '\n'
  | 'r' => some '\r'
  | 't' => some '\t'
  | _ => none

def hexQuad? : List Char → Option Nat
  | a :: b :: c :: d :: _ => do
    let a ← Number.digit? 16 a
    let b ← Number.digit? 16 b
    let c ← Number.digit? 16 c
    let d ← Number.digit? 16 d
    return ((a * 16 + b) * 16 + c) * 16 + d
  | _ => none

/-- Reads four hexadecimal digits. Other text is a fault four bytes on. -/
def hexQuad (s : List Char) : Except Fault Nat :=
  match hexQuad? s with
  | some n => .ok n
  | none =>
    if byteLength s < 4 then .error ⟨.endInString, 0⟩
    else .error ⟨.invalidEscape, byteLength s - 4⟩

def isHighSurrogate (n : Nat) : Bool := 0xD800 ≤ n && n ≤ 0xDBFF

def isLowSurrogate (n : Nat) : Bool := 0xDC00 ≤ n && n ≤ 0xDFFF

/-- The second half of a surrogate pair, with the characters that the pair takes. -/
def lowSurrogate (high : Nat) (s : List Char) : Except Fault (Char × Nat) :=
  match s with
  | [] => .error (.here .endInString [])
  | c :: s =>
    if c ≠ '\\' then .error (.peek .brokenSurrogatePair (c :: s))
    else
      match s with
      | [] => .error (.here .endInString [])
      | c :: s =>
        if c ≠ 'u' then .error (.peek .brokenSurrogatePair (c :: s))
        else
          match hexQuad s with
          | .error fault => .error fault
          | .ok low =>
            if isLowSurrogate low then
              .ok (.ofNat (0x10000 + (high - 0xD800) * 0x400 + (low - 0xDC00)), 10)
            else .error (.here .loneSurrogate (s.drop 4))

/-- The character that follows `\u`, with the number of characters that spell it. -/
def codeUnitEscape (s : List Char) : Except Fault (Char × Nat) :=
  match hexQuad s with
  | .error fault => .error fault
  | .ok n =>
    if isLowSurrogate n then .error (.here .loneSurrogate (s.drop 4))
    else if isHighSurrogate n then lowSurrogate n (s.drop 4)
    else .ok (.ofNat n, 4)

def consRead (c : Char) :
    Except Fault (List Char × List Char) → Except Fault (List Char × List Char)
  | .error fault => .error fault
  | .ok (cs, s) => .ok (c :: cs, s)

def stringRest : List Char → Except Fault (List Char × List Char)
  | [] => .error (.here .endInString [])
  | c :: s =>
    if c = '"' then .ok ([], s)
    else if c.toNat < 0x20 then .error (.here .controlCharacter s)
    else if c ≠ '\\' then consRead c (stringRest s)
    else
      match s with
      | [] => .error (.here .endInString [])
      | letter :: s =>
        match shortEscape? letter with
        | some c => consRead c (stringRest s)
        | none =>
          if letter = 'u' then
            match codeUnitEscape s with
            | .error fault => .error fault
            | .ok (c, taken) => consRead c (stringRest (s.drop taken))
          else .error (.peek .invalidEscape (letter :: s))
termination_by s => s.length
decreasing_by all_goals simp_wf; try omega

/-- Reads a string after its opening quote. -/
def readString (s : List Char) : Except Fault (String × List Char) :=
  match stringRest s with
  | .error fault => .error fault
  | .ok (cs, s) => .ok (.ofList cs, s)

end FakeData.Json
