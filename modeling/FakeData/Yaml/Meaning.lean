import FakeData.Number.Binary64
import FakeData.Number.Digits
import FakeData.Text.Quoted

/-!
# What plain scalars mean

Without quotes some texts stand for nothing, for truth values or for numbers. All others stand for
themselves.
-/
namespace FakeData.Yaml

open Number (digits? dropPlus)

inductive Meaning where
  | nothing
  | truth (value : Bool)
  | integer (value : Int)
  | double (bits : Number.Bits)
  | text
  deriving DecidableEq, Repr

/-! ## Integers -/

/-- Whether the digits start with a needless zero. Such texts are not numbers. -/
def hasNeedlessZero (s : List Char) : Bool :=
  match s with
  | '0' :: s => s != [] && s.all Char.isDigit
  | _ => false

/-- The number that a text without sign spells, in the base that it names or in base ten. -/
def magnitude? (s : List Char) : Option Nat :=
  match s with
  | '0' :: 'x' :: s => digits? 16 s
  | '0' :: 'o' :: s => digits? 8 s
  | '0' :: 'b' :: s => digits? 2 s
  | s => if hasNeedlessZero s then none else digits? 10 s

/-- The integer below `2 ^ 64` that a text without minus sign spells. -/
def unsigned? (s : List Char) : Option UInt64 :=
  (magnitude? (dropPlus s)).bind fun n => if n < 1 <<< 64 then some (.ofNat n) else none

def integer? (s : List Char) : Option Int :=
  match s with
  | '-' :: s => (magnitude? s).bind fun n => if n ≤ 1 <<< 127 then some (-n) else none
  | s => (magnitude? (dropPlus s)).bind fun n => if n < 1 <<< 128 then some n else none

/-! ## Doubles -/

/-- The parts of a decimal number: its digits without the point, and a power of ten. -/
structure DecimalParts where
  digits : List Char
  exponent : Int
  deriving DecidableEq, Repr

def exponent? (s : List Char) : Option Int :=
  match s with
  | '-' :: s => (digits? 10 s).map fun n => -n
  | s => (digits? 10 (dropPlus s)).map fun n => n

/-- Reads a decimal number without sign. It has a digit before or after the point. -/
def decimalParts? (s : List Char) : Option DecimalParts :=
  let whole := s.takeWhile Char.isDigit
  let s := s.dropWhile Char.isDigit
  let (fraction, s) :=
    match s with
    | '.' :: s => (s.takeWhile Char.isDigit, s.dropWhile Char.isDigit)
    | s => ([], s)
  if whole ++ fraction = [] then none
  else
    let shift : Option Int :=
      match s with
      | [] => some 0
      | c :: s => if c = 'e' ∨ c = 'E' then exponent? s else none
    shift.map fun shift => ⟨whole ++ fraction, shift - fraction.length⟩

/-- More digits than the whole part of any double has, or than a double has zeros after the
point. -/
def farExponent : Int := 400

/-- The double nearest to a decimal number, unless it is infinite. -/
def DecimalParts.toFloat? (parts : DecimalParts) : Option Float :=
  let value := (digits? 10 parts.digits).getD 0
  let size := parts.exponent + (Nat.toDigits 10 value).length
  if value = 0 ∨ size < -farExponent then some 0
  else if farExponent < size then none
  else
    let float := Float.ofScientific value (parts.exponent < 0) parts.exponent.natAbs
    if float.isInf then none else some float

def infinityWords : List (List Char) :=
  [['.', 'i', 'n', 'f'], ['.', 'I', 'n', 'f'], ['.', 'I', 'N', 'F']]

def notANumberWords : List (List Char) :=
  [['.', 'n', 'a', 'n'], ['.', 'N', 'a', 'N'], ['.', 'N', 'A', 'N']]

def infinity : Number.Bits := 0x7FF0000000000000

def signBit : Number.Bits := 0x8000000000000000

def notANumber : Number.Bits := 0x7FF8000000000000

def unsignedDouble? (s : List Char) : Option Number.Bits :=
  if infinityWords.contains s then some infinity
  else ((decimalParts? s).bind DecimalParts.toFloat?).map Float.toBits

def double? (s : List Char) : Option Number.Bits :=
  if notANumberWords.contains s then some notANumber
  else
    match s with
    | '-' :: s => if hasNeedlessZero s then none else (unsignedDouble? s).map (· ^^^ signBit)
    | s => if hasNeedlessZero (dropPlus s) then none else unsignedDouble? (dropPlus s)

/-! ## All plain scalars -/

def nullWords : List String := ["", "null", "Null", "NULL", "~"]

def trueWords : List String := ["true", "True", "TRUE"]

def falseWords : List String := ["false", "False", "FALSE"]

/-- What a text means when it stands without quotes. -/
def meaning (text : String) : Meaning :=
  if nullWords.contains text then .nothing
  else if trueWords.contains text then .truth true
  else if falseWords.contains text then .truth false
  else
    match integer? text.toList with
    | some value => .integer value
    | none =>
      match double? text.toList with
      | some bits => .double bits
      | none => .text

/-- Which words of the machine an integer needs, if it does not fit the usual ones. -/
def wideSuffix (value : Int) : String :=
  if (1 <<< 64 : Nat) ≤ value then " as u128"
  else if value < -(1 <<< 63 : Nat) then " as i128"
  else ""

def Meaning.describe (text : String) : Meaning → String
  | .nothing => "unit value"
  | .truth value => "boolean `" ++ (if value then "true" else "false") ++ "`"
  | .integer value => "integer `" ++ toString value ++ "`" ++ wideSuffix value
  | .double bits => "floating point `" ++ bits.text .configuration ++ "`"
  | .text => "string " ++ Text.quote text

end FakeData.Yaml
