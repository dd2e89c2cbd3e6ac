import FakeData.Mismatch
import FakeData.Yaml.Meaning
import FakeData.Yaml.Reader

/-!
# Records in YAML texts

A record is a mapping whose keys are the names of its fields. Other keys are passed over, and the
fields that are found are handed to the owner of the record one by one.
-/
namespace FakeData.Yaml

inductive RecordFault where
  /-- The text breaks a rule of the format. -/
  | malformed
  /-- The record is not as expected, in one of its fields or as a whole. -/
  | mismatch (field : Option String) (cause : Mismatch) (mark : Mark)
  deriving DecidableEq, Repr

def RecordFault.message? : RecordFault → Option String
  | .malformed => none
  | .mismatch field cause mark =>
    let place := match field with
      | some name => name ++ ": "
      | none => ""
    some (place ++ cause.message ++ mark.describe)

namespace Node

def describe : Node → String
  | .scalar _ true text => (meaning text).describe text
  | .scalar _ false text => Meaning.text.describe text
  | .sequence _ _ => "sequence"
  | .mapping _ _ => "map"
  | .broken => ""

def isNothing : Node → Bool
  | .scalar _ true text => nullWords.contains text
  | _ => false

/-- One of the codes of a list, found by its exact text. -/
def readCode {α : Type} (ofCode? : String → Option α) (known : List String) :
    Node → Except Mismatch α
  | .scalar _ _ text =>
    match ofCode? text with
    | some value => .ok value
    | none => .error (.unknownCode text known)
  | node => .error (.wrongKind node.describe "a YAML tag starting with '!'")

def readPath : Node → Except Mismatch String
  | .scalar _ _ text => .ok text
  | node => .error (.wrongKind node.describe "path string")

/-- An integer below `2 ^ 64`, written without quotes. -/
def readUnsigned (node : Node) : Except Mismatch UInt64 :=
  match node with
  | .scalar _ true text =>
    match unsigned? text.toList with
    | some value => .ok value
    | none => .error (.wrongKind node.describe "u64")
  | node => .error (.wrongKind node.describe "u64")

/-- A value that may be left out. -/
def readOptional {α : Type} (read : Node → Except Mismatch α) (node : Node) :
    Except Mismatch (Option α) :=
  if node.isNothing then .ok none else (read node).map some

end Node

/-- The fields of a kind of record, and what a value of a field does to the record. -/
structure Schema (σ : Type) where
  name : String
  fields : List String
  set : String → Node → σ → Except Mismatch σ

namespace Schema

variable {σ : Type}

def take (schema : Schema σ) (field : String) (value : Node) (record : σ) : Except RecordFault σ :=
  match value with
  | .broken => .error .malformed
  | value =>
    match schema.set field value record with
    | .ok record => .ok record
    | .error cause => .error (.mismatch (some field) cause value.mark)

/-- Takes entries into a record in which some fields are already set. Gives the record and the
fields that are set in it. -/
def takeEntries (schema : Schema σ) (root : Mark) :
    List (Node × Node) → List String → σ → Except RecordFault (σ × List String)
  | [], present, record => .ok (record, present)
  | (.scalar _ _ key, value) :: entries, present, record =>
    if schema.fields.contains key then
      if present.contains key then .error (.mismatch none (.duplicateField key) root)
      else
        match schema.take key value record with
        | .error fault => .error fault
        | .ok record => schema.takeEntries root entries (key :: present) record
    else if value.isWhole then schema.takeEntries root entries present record
    else .error .malformed
  | (.broken, _) :: _, _, _ => .error .malformed
  | (key, _) :: _, _, _ =>
    .error (.mismatch none (.wrongKind key.describe "field identifier") key.mark)

/-- Takes the root of a text into a record. A root that is left out is a mapping without entries,
and so is an empty text without quotes. -/
def takeRoot (schema : Schema σ) (record : σ) : Node → Except RecordFault (σ × List String)
  | .mapping mark entries => schema.takeEntries mark entries [] record
  | .scalar _ true "" => .ok (record, [])
  | .broken => .error .malformed
  | node => .error (.mismatch none (.wrongKind node.describe ("struct " ++ schema.name)) node.mark)

/-- Reads a record from a text, starting from a given one. All `required` fields must be there. -/
def read (schema : Schema σ) (required : List String) (record : σ) (text : String) :
    Except RecordFault σ :=
  let document := readText text
  match schema.takeRoot record document.root with
  | .error fault => .error fault
  | .ok (record, present) =>
    match required.find? (!present.contains ·) with
    | some field => .error (.mismatch none (.missingField field) document.root.mark)
    | none => if document.closed then .ok record else .error .malformed

end Schema

end FakeData.Yaml
