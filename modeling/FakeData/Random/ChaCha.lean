/-!
# The ChaCha stream

Blocks of sixteen words, each made from a key and the number of the block by twelve rounds of
additions, exclusive disjunctions and rotations, and the stream of words that the blocks give one
after the other.
-/
namespace FakeData.Random

abbrev Block := Vector UInt32 16

abbrev Key := Vector UInt32 8

def rotateLeft (word : UInt32) (amount : UInt32) : UInt32 :=
  (word <<< amount) ||| (word >>> (32 - amount))

def quarterRound (b : Block) (i j k l : Fin 16) : Block :=
  let b := b.set i (b[i] + b[j])
  let b := b.set l (rotateLeft (b[l] ^^^ b[i]) 16)
  let b := b.set k (b[k] + b[l])
  let b := b.set j (rotateLeft (b[j] ^^^ b[k]) 12)
  let b := b.set i (b[i] + b[j])
  let b := b.set l (rotateLeft (b[l] ^^^ b[i]) 8)
  let b := b.set k (b[k] + b[l])
  b.set j (rotateLeft (b[j] ^^^ b[k]) 7)

/-- Mixes the columns of a block, and then its diagonals. -/
def doubleRound (b : Block) : Block :=
  let b := quarterRound b 0 4 8 12
  let b := quarterRound b 1 5 9 13
  let b := quarterRound b 2 6 10 14
  let b := quarterRound b 3 7 11 15
  let b := quarterRound b 0 5 10 15
  let b := quarterRound b 1 6 11 12
  let b := quarterRound b 2 7 8 13
  quarterRound b 3 4 9 14

def doubleRounds : Nat → Block → Block
  | 0, b => b
  | n + 1, b => doubleRounds n (doubleRound b)

/-- Four constants, the key, the number of the block and an empty stream number. -/
def startBlock (key : Key) (number : UInt64) : Block :=
  #v[0x61707865, 0x3320646e, 0x79622d32, 0x6b206574, key[0], key[1], key[2], key[3], key[4],
    key[5], key[6], key[7], number.toUInt32, (number >>> 32).toUInt32, 0, 0]

def block (key : Key) (number : UInt64) : Block :=
  let start := startBlock key number
  start.zipWith (· + ·) (doubleRounds 6 start)

/-- A place in a stream: the words left of the current block, and the number of the next one. -/
structure WordStream where
  key : Key
  number : UInt64
  pending : List UInt32

namespace WordStream

def ofKey (key : Key) : WordStream := ⟨key, 0, []⟩

def next32 (stream : WordStream) : UInt32 × WordStream :=
  match stream.pending with
  | word :: pending => (word, { stream with pending })
  | [] =>
    let words := block stream.key stream.number
    (words[0], { stream with number := stream.number + 1, pending := words.toList.drop 1 })

/-- The next 64 bits, the low word first. -/
def next64 (stream : WordStream) : UInt64 × WordStream :=
  let (low, stream) := stream.next32
  let (high, stream) := stream.next32
  ((high.toUInt64 <<< 32) ||| low.toUInt64, stream)

end WordStream

/-! ## Seeds -/

/-- One step of the generator that spreads a seed over a key. -/
def spread (state : UInt64) : UInt64 := state * 6364136223846793005 + 11634580027462260723

def spreadWord (state : UInt64) : UInt32 :=
  let mixed := (((state >>> 18) ^^^ state) >>> 27).toUInt32
  let amount := (state >>> 59).toUInt32
  (mixed >>> amount) ||| (mixed <<< ((32 - amount) % 32))

def spreadStates : Nat → UInt64 → List UInt64
  | 0, _ => []
  | n + 1, state => spread state :: spreadStates n (spread state)

def keyOfSeed (seed : UInt64) : Key :=
  .ofFn fun i => spreadWord ((spreadStates 8 seed).getD i.val 0)

def WordStream.ofSeed (seed : UInt64) : WordStream := .ofKey (keyOfSeed seed)

end FakeData.Random
