import FakeData.Json.Skip
import FakeData.Locale
import FakeData.Mismatch

/-!
# Locales in JSON texts

A locale is written as an object with its two codes, which are exact here. It may also be read
from a list of the two codes, and a code from an object whose only key it is, with a null as its
value.
-/
namespace FakeData

inductive RecordCause where
  | format (cause : Json.FaultCause)
  | mismatch (cause : Mismatch)
  deriving DecidableEq, Repr

def RecordCause.message : RecordCause → String
  | .format cause => cause.message
  | .mismatch cause => cause.message

namespace LocaleRecord

open Json (Located Fault Reader skipSpace)

abbrev RecordFault := Located RecordCause

def message (text : String) (fault : RecordFault) : String :=
  fault.cause.message ++ (Json.Position.ofLeft text fault.left).describe

/-- A fault of the format, where a record is read. -/
def ofFault (fault : Fault) : RecordFault := ⟨.format fault.cause, fault.left⟩

def lift {α : Type} : Except Fault α → Except RecordFault α
  | .error fault => .error (ofFault fault)
  | .ok value => .ok value

def hereMismatch (cause : Mismatch) (s : List Char) : RecordFault := .here (.mismatch cause) s

def hereFormat (cause : Json.FaultCause) (s : List Char) : RecordFault := .here (.format cause) s

def peekFormat (cause : Json.FaultCause) (s : List Char) : RecordFault := .peek (.format cause) s

/-- The fault of a value of the wrong kind. A value that holds no others is read first. -/
def wrongKind (expected : String) (s : List Char) : RecordFault :=
  match s with
  | '[' :: _ => hereMismatch (.wrongKind "sequence" expected) s
  | '{' :: _ => hereMismatch (.wrongKind "map" expected) s
  | s =>
    match Json.valueWith .any none s with
    | .error fault => ofFault fault
    | .ok (value, after) => hereMismatch (.wrongKind value.describe expected) after

/-! ## Codes -/

structure Codes (α : Type) where
  known : List String
  ofCode? : String → Option α

def countries : Codes Country := ⟨Country.all.map Country.code, Country.ofCode?⟩

def languages : Codes Language := ⟨Language.all.map Language.code, Language.ofCode?⟩

/-- Reads a code after its opening quote. -/
def readCodeText {α : Type} (codes : Codes α) (s : List Char) :
    Except RecordFault (α × List Char) :=
  match Json.readString s with
  | .error fault => .error (ofFault fault)
  | .ok (text, s) =>
    match codes.ofCode? text with
    | some value => .ok (value, s)
    | none => .error (hereMismatch (.unknownCode text codes.known) s)

def readColon (s : List Char) : Except RecordFault (List Char) :=
  match skipSpace s with
  | [] => .error (peekFormat .endInObject [])
  | c :: s => if c = ':' then .ok s else .error (peekFormat .expectedColon (c :: s))

def readNull (s : List Char) : Except RecordFault (List Char) :=
  match skipSpace s with
  | [] => .error (peekFormat .endInValue [])
  | c :: s =>
    if c = 'n' then lift ((Json.readWord ['u', 'l', 'l'] s).map (·.2))
    else .error (wrongKind "unit" (c :: s))

/-- Reads a code that is the key of an object, after its opening brace. -/
def readCodeKey {α : Type} (codes : Codes α) (s : List Char) :
    Except RecordFault (α × List Char) :=
  match skipSpace s with
  | [] => .error (peekFormat .endInObject [])
  | c :: s =>
    if c = '}' then .error (peekFormat .expectedValue (c :: s))
    else if c ≠ '"' then .error (peekFormat .keyNotString (c :: s))
    else do
      let (value, s) ← readCodeText codes s
      let s ← readColon s
      let s ← readNull s
      match skipSpace s with
      | [] => .error (hereFormat .endInObject [])
      | c :: s =>
        if c = '}' then return (value, s) else .error (hereFormat .expectedValue (c :: s))

/-- Reads a code in either form. -/
def readCode {α : Type} (codes : Codes α) (s : List Char) : Except RecordFault (α × List Char) :=
  match skipSpace s with
  | [] => .error (peekFormat .endInValue [])
  | c :: s =>
    if c = '"' then readCodeText codes s
    else if c = '{' then readCodeKey codes s
    else .error (peekFormat .expectedValue (c :: s))

/-! ## Lists of codes -/

/-- A mismatch in a list, after the end of the list or the comma that comes next. -/
def listMismatch (cause : Mismatch) (s : List Char) : RecordFault :=
  match skipSpace s with
  | ']' :: s => hereMismatch cause s
  | ',' :: s => hereMismatch cause (skipSpace s)
  | s => hereMismatch cause s

def lengthExpected : String := "struct Locale with 2 elements"

def readItem {α : Type} (codes : Codes α) (before : Nat) (s : List Char) :
    Except RecordFault (α × List Char) :=
  match Json.Enclosure.list.next (before == 0) s with
  | .error fault => .error (ofFault fault)
  | .ok (false, s) => .error (listMismatch (.wrongLength before lengthExpected) (']' :: s))
  | .ok (true, s) => readCode codes s

def readListEnd (s : List Char) : Except RecordFault (List Char) :=
  match skipSpace s with
  | [] => .error (peekFormat .endInList [])
  | ']' :: s => .ok s
  | ',' :: s =>
    match skipSpace s with
    | ']' :: s => .error (peekFormat .trailingComma (']' :: s))
    | s => .error (peekFormat .trailingCharacters s)
  | s => .error (peekFormat .trailingCharacters s)

def readList (s : List Char) : Except RecordFault (Locale × List Char) := do
  let (country, s) ← readItem countries 0 s
  let (language, s) ← readItem languages 1 s
  let s ← readListEnd s
  return (⟨country, language⟩, s)

/-! ## Records -/

structure Parts where
  country : Option Country
  language : Option Language
  deriving DecidableEq, Repr

def Parts.none : Parts := ⟨.none, .none⟩

/-- The locale with these parts, or the first field that is missing. -/
def Parts.locale : Parts → Except Mismatch Locale
  | ⟨.none, _⟩ => .error (.missingField "country")
  | ⟨_, .none⟩ => .error (.missingField "language")
  | ⟨some country, some language⟩ => .ok ⟨country, language⟩

/-- A mismatch in an object, after the brace that closes it if that comes next. -/
def objectMismatch (cause : Mismatch) (s : List Char) : RecordFault :=
  match skipSpace s with
  | '}' :: s => hereMismatch cause s
  | s => hereMismatch cause s

/-- Reads the value of a key into the parts, or passes over it if the key is none of theirs. -/
def readField (parts : Parts) (key : String) (s : List Char) :
    Except RecordFault (Parts × List Char) :=
  if key = "country" then
    if parts.country.isSome then .error (objectMismatch (.duplicateField key) s)
    else do
      let (country, s) ← readCode countries (← readColon s)
      return ({ parts with country := some country }, s)
  else if key = "language" then
    if parts.language.isSome then .error (objectMismatch (.duplicateField key) s)
    else do
      let (language, s) ← readCode languages (← readColon s)
      return ({ parts with language := some language }, s)
  else do
    let s ← lift (Json.skipValue (← readColon s))
    return (parts, s)

/-- Reads the members of an object up to its closing brace. `fuel` bounds their number. -/
def readFields : Nat → Bool → Parts → List Char → Except RecordFault (Locale × List Char)
  | 0, _, _, s => .error (peekFormat .endInObject s)
  | fuel + 1, first, parts, s =>
    match Json.Enclosure.object.next first s with
    | .error fault => .error (ofFault fault)
    | .ok (false, s) =>
      match parts.locale with
      | .ok locale => .ok (locale, s)
      | .error cause => .error (hereMismatch cause s)
    | .ok (true, '"' :: s) =>
      match Json.readString s with
      | .error fault => .error (ofFault fault)
      | .ok (key, s) =>
        match readField parts key s with
        | .error fault => .error fault
        | .ok (parts, s) => readFields fuel false parts s
    | .ok (true, s) => .error (peekFormat .keyNotString s)

def readRecord (s : List Char) : Except RecordFault (Locale × List Char) :=
  match skipSpace s with
  | [] => .error (peekFormat .endInValue [])
  | '[' :: s => readList s
  | '{' :: s => readFields (s.length + 1) true .none s
  | s => .error (wrongKind "struct Locale" s)

def ofJson (text : String) : Except RecordFault Locale :=
  match readRecord text.toList with
  | .error fault => .error fault
  | .ok (locale, s) =>
    match skipSpace s with
    | [] => .ok locale
    | s => .error (peekFormat .trailingCharacters s)

def toJson (locale : Locale) : String :=
  "\x7b\"country\":\"" ++ locale.country.code ++ "\",\"language\":\"" ++ locale.language.code ++
    "\"\x7d"

end LocaleRecord

end FakeData
