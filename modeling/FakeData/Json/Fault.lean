/-!
# Faults in JSON texts

A fault says what is wrong and how many bytes of the text were not yet read when it was found.
Its position counts lines from one, and the bytes between the start of the line and the fault.
-/
namespace FakeData.Json

inductive FaultCause where
  | endInValue
  | endInString
  | endInList
  | endInObject
  | expectedValue
  | expectedIdent
  | expectedListEnd
  | expectedObjectEnd
  | expectedColon
  | keyNotString
  | trailingComma
  | trailingCharacters
  | invalidNumber
  | numberOutOfRange
  | controlCharacter
  | invalidEscape
  | loneSurrogate
  | brokenSurrogatePair
  | tooDeep
  | duplicateKey (key : String)
  deriving DecidableEq, Repr

namespace FaultCause

def message : FaultCause → String
  | .endInValue => "EOF while parsing a value"
  | .endInString => "EOF while parsing a string"
  | .endInList => "EOF while parsing a list"
  | .endInObject => "EOF while parsing an object"
  | .expectedValue => "expected value"
  | .expectedIdent => "expected ident"
  | .expectedListEnd => "expected `,` or `]`"
  | .expectedObjectEnd => "expected `,` or `\x7d`"
  | .expectedColon => "expected `:`"
  | .keyNotString => "key must be a string"
  | .trailingComma => "trailing comma"
  | .trailingCharacters => "trailing characters"
  | .invalidNumber => "invalid number"
  | .numberOutOfRange => "number out of range"
  | .controlCharacter => "control character (\\u0000-\\u001F) found while parsing a string"
  | .invalidEscape => "invalid escape"
  | .loneSurrogate => "lone leading surrogate in hex escape"
  | .brokenSurrogatePair => "unexpected end of hex escape"
  | .tooDeep => "recursion limit exceeded"
  | .duplicateKey key => "duplicate key '" ++ key ++ "'"

/-- Whether the text ended where more was needed. -/
def isEnd : FaultCause → Bool
  | .endInValue | .endInString | .endInList | .endInObject => true
  | _ => false

end FaultCause

/-- A fault of some kind, and how many bytes were left unread when it was found. -/
structure Located (α : Type) where
  cause : α
  left : Nat
  deriving DecidableEq, Repr

abbrev Fault := Located FaultCause

def byteLength : List Char → Nat
  | [] => 0
  | c :: cs => c.utf8Size + byteLength cs

@[simp] theorem byteLength_nil : byteLength [] = 0 := rfl

@[simp] theorem byteLength_cons (c : Char) (cs : List Char) :
    byteLength (c :: cs) = c.utf8Size + byteLength cs := rfl

def Located.here (cause : α) (unread : List Char) : Located α := ⟨cause, byteLength unread⟩

/-- A fault that counts one byte of the unread characters, if there is one. -/
def Located.peek (cause : α) (unread : List Char) : Located α := ⟨cause, byteLength unread - 1⟩

/-- A line, counted from one, and the bytes before a place in it. -/
structure Position where
  line : Nat
  column : Nat
  deriving DecidableEq, Repr

namespace Position

def advance : List Char → Nat → Position → Position
  | [], _, position => position
  | c :: cs, offset, position =>
    if offset = 0 then position
    else if c = '\n' then advance cs (offset - 1) ⟨position.line + 1, 0⟩
    else
      advance cs (offset - c.utf8Size)
        ⟨position.line, position.column + min offset c.utf8Size⟩

def ofLeft (text : String) (left : Nat) : Position :=
  advance text.toList (text.utf8ByteSize - left) ⟨1, 0⟩

def describe (position : Position) : String :=
  " at line " ++ toString position.line ++ " column " ++ toString position.column

end Position

def Fault.message (text : String) (fault : Fault) : String :=
  fault.cause.message ++ (Position.ofLeft text fault.left).describe

end FakeData.Json
