import FakeData.Number.Shortest

/-!
# Doubles and their texts

Double-precision numbers are kept as their 64 bits. Their texts come from the shortest decimal,
written out in full or with an exponent as a format asks for.
-/
namespace FakeData.Number

/-- The bits of a double: one sign bit, eleven of exponent, fifty-two of fraction. -/
abbrev Bits := UInt64

namespace Bits

def isNegative (bits : Bits) : Bool := 1 <<< 63 ≤ bits.toNat

def exponentField (bits : Bits) : Nat := bits.toNat / 1 <<< 52 % 1 <<< 11

def fraction (bits : Bits) : Nat := bits.toNat % 1 <<< 52

def isZero (bits : Bits) : Bool := bits.exponentField == 0 && bits.fraction == 0

def isInfinite (bits : Bits) : Bool := bits.exponentField == 2047 && bits.fraction == 0

def isNaN (bits : Bits) : Bool := bits.exponentField == 2047 && bits.fraction != 0

/-- The size of a finite double. Below the least exponent there is no leading one. -/
def magnitude (bits : Bits) : Magnitude :=
  if bits.exponentField = 0 then ⟨bits.fraction, -1074, false⟩
  else
    ⟨1 <<< 52 + bits.fraction, bits.exponentField - 1075,
      bits.fraction == 0 && 1 < bits.exponentField⟩

end Bits

/-- Where a format writes numbers without an exponent: from `10 ^ least` up to, but not with,
`10 ^ (most + 1)`, or everywhere; and which digits it prefers. -/
structure DecimalFormat where
  plain : Option (Int × Int)
  tie : Tie
  deriving DecidableEq, Repr

/-- Messages about documents write no exponent between `1e-5` and `1e+15`, and an even last digit
where there is a choice. -/
def DecimalFormat.document : DecimalFormat := ⟨some (-5, 15), .toEven⟩

/-- Messages about configurations never write an exponent, and the higher digits where there is a
choice. -/
def DecimalFormat.configuration : DecimalFormat := ⟨none, .up⟩

namespace Decimal

def digitText (d : Decimal) : List Char := Nat.toDigits 10 d.digits

def leading (d : Decimal) : Int := d.exponent + d.digitText.length - 1

/-- All digits in their places, with at least one on each side of the point. -/
def plainText (d : Decimal) : List Char :=
  let ds := d.digitText
  if 0 ≤ d.exponent then ds ++ List.replicate d.exponent.toNat '0' ++ ['.', '0']
  else
    let places := (-d.exponent).toNat
    if places < ds.length then ds.take (ds.length - places) ++ '.' :: ds.drop (ds.length - places)
    else '0' :: '.' :: List.replicate (places - ds.length) '0' ++ ds

/-- One digit before the point, none after it if there is nothing to write, and an exponent with
its sign. -/
def exponentText (d : Decimal) : List Char :=
  let (head, tail) := (d.digitText.take 1, d.digitText.drop 1)
  let mantissa := if tail = [] then head else head ++ '.' :: tail
  let sign := if d.leading < 0 then '-' else '+'
  mantissa ++ 'e' :: sign :: Nat.toDigits 10 d.leading.natAbs

def text (format : DecimalFormat) (d : Decimal) : List Char :=
  match format.plain with
  | none => d.plainText
  | some (least, most) =>
    if least ≤ d.leading ∧ d.leading ≤ most then d.plainText else d.exponentText

end Decimal

def Bits.text (format : DecimalFormat) (bits : Bits) : String :=
  let sign := if bits.isNegative then "-" else ""
  if bits.isNaN then "NaN"
  else if bits.isInfinite then sign ++ "inf"
  else if bits.isZero then sign ++ "0.0"
  else sign ++ .ofList ((bits.magnitude.shortest format.tie).text format)

end FakeData.Number
