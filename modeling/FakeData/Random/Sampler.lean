import FakeData.Draw.Basic
import FakeData.Random.ChaCha

/-!
# Sampling from a stream

Numbers from ranges, doubles and truth values out of 64 random bits at a time. A number from a
range of size `r` is the high half of `r` times the bits, and the bits are drawn again when the low
half lies above a zone, which leaves the same count of bits for every number of the range.
-/
namespace FakeData.Random

def wordCount : Nat := 1 <<< 64

/-- How far a size can be shifted to the left before its leading one is lost. -/
def leadingZeros (size : Nat) : Nat := 63 - Nat.log2 size

/-- The largest low half that is accepted for a size. -/
def zone (size : Nat) : Nat := (size <<< leadingZeros size - 1) % wordCount

/-- The number below `size` that 64 random bits stand for, unless they are to be drawn again. -/
def offset? (size : Nat) (bits : UInt64) : Option Nat :=
  let product := bits.toNat * size
  if product % wordCount ≤ zone size then some (product / wordCount) else none

theorem lt_of_offset? {size n : Nat} {bits : UInt64} (positive : 0 < size)
    (h : offset? size bits = some n) : n < size := by
  simp only [offset?] at h
  split at h
  · cases h
    have hb : bits.toNat < wordCount := bits.toNat_lt
    rw [Nat.div_lt_iff_lt_mul (by decide), Nat.mul_comm size]
    exact Nat.mul_lt_mul_of_pos_right hb positive
  · cases h

namespace WordStream

/-- The blocks of a stream are numbered by words, so it has gone round after `2 ^ 64` of them. Each
has eight words of 64 bits. -/
def round : Nat := 1 <<< 67

/-- What the first of so many words with an answer gives, and the stream after that word. -/
def search {α : Type} (answer : UInt64 → Option α) :
    Nat → WordStream → Option (α × WordStream)
  | 0, _ => none
  | count + 1, stream =>
    match answer stream.next64.1 with
    | some value => some (value, stream.next64.2)
    | none => search answer count stream.next64.2

/-- What the first word with an answer gives, and the stream after that word. There is nothing to
give exactly if no word ever has an answer: a search that has gone all the way round would meet the
same words again, without an end. -/
def first {α : Type} (stream : WordStream) (answer : UInt64 → Option α) :
    Option (α × WordStream) :=
  search answer (round + stream.pending.length) stream

/-- The number below a size that the first accepted word of a stream stands for. -/
def drawOffset (stream : WordStream) (size : Nat) : Option (Nat × WordStream) :=
  stream.first (offset? size)

theorem exists_answer_of_search {α : Type} {answer : UInt64 → Option α} {value : α}
    {rest : WordStream} : ∀ {count : Nat} {stream : WordStream},
      search answer count stream = some (value, rest) → ∃ bits, answer bits = some value
  | 0, _, h => by cases h
  | count + 1, stream, h => by
    rw [search] at h
    split at h
    · cases h
      exact ⟨_, ‹_›⟩
    · exact exists_answer_of_search h

theorem lt_of_drawOffset {size n : Nat} {stream rest : WordStream} (positive : 0 < size)
    (h : stream.drawOffset size = some (n, rest)) : n < size :=
  have ⟨_, hoffset⟩ := exists_answer_of_search h
  lt_of_offset? positive hoffset

end WordStream

/-- Only a search that ends gives an index. The contract asks for one in any case. -/
instance : IndexSource WordStream where
  next stream bound positive :=
    match h : stream.drawOffset bound with
    | some (n, rest) => (⟨n, WordStream.lt_of_drawOffset positive h⟩, rest)
    | none => (⟨0, positive⟩, stream)

inductive SampleFault where
  | emptyRange
  | rangeOverflow
  | invalidProbability
  deriving DecidableEq, Repr

def SampleFault.message : SampleFault → String
  | .emptyRange => "cannot sample empty range"
  | .rangeOverflow => "UniformSampler::sample_single: range overflow"
  | .invalidProbability => "called `Result::unwrap()` on an `Err` value: InvalidProbability"

namespace WordStream

/-- An index below a bound, if the search for one ends. -/
def nextIndex (stream : WordStream) (bound : Nat) :
    Except SampleFault (Option (Nat × WordStream)) :=
  if bound = 0 then .error .emptyRange else .ok (stream.drawOffset bound)

/-- An integer from `least` up to, but not with, `limit`, which are integers of a machine word. A
range can have more numbers than there are positive ones, so its size is taken without sign, and
difference and sum are taken modulo `2 ^ 64`. -/
def nextInt (stream : WordStream) (least limit : Int) :
    Except SampleFault (Option (Int × WordStream)) :=
  if limit ≤ least then .error .emptyRange
  else
    let least := Int64.ofInt least
    .ok <| (stream.drawOffset (Int64.ofInt limit - least).toUInt64.toNat).map fun (n, rest) =>
      ((least + (UInt64.ofNat n).toInt64).toInt, rest)

/-- The double between one and two with these 52 bits of fraction, less one. -/
def unitFloat (bits : UInt64) : Float :=
  Float.ofBits (((1023 : UInt64) <<< 52) ||| (bits >>> 12)) - 1.0

/-- The double that 64 random bits stand for, unless it has been rounded up to the limit. -/
def float? (least scale limit : Float) (bits : UInt64) : Option Float :=
  let value := unitFloat bits * scale + least
  if value < limit then some value else none

def nextFloat (stream : WordStream) (least limit : Float) :
    Except SampleFault (Option (Float × WordStream)) :=
  if least < limit then
    let scale := limit - least
    if scale.isInf then .error .rangeOverflow
    else .ok (stream.first (float? least scale limit))
  else .error .emptyRange

/-- The truth value that is true with the given probability. Certainty takes nothing from the
stream. -/
def nextBool (stream : WordStream) (probability : Float) : Except SampleFault (Bool × WordStream) :=
  if probability == 1.0 then .ok (true, stream)
  else if 0.0 ≤ probability ∧ probability < 1.0 then
    let (bits, stream) := stream.next64
    .ok (bits < (probability * 18446744073709551616.0).toUInt64, stream)
  else .error .invalidProbability

end WordStream

end FakeData.Random
