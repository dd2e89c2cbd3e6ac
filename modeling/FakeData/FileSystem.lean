/-!
# Files

What comes of reading the file at a path, and the text in it.
-/
namespace FakeData

inductive ReadFault where
  | missing
  | isDirectory
  | notDirectory
  | nameTooLong
  | nulInPath
  | notText
  | other (message : String)
  deriving DecidableEq, Repr

/-- The kinds of failure that callers tell apart. -/
inductive FaultKind where
  | notFound
  | isDirectory
  | notDirectory
  | invalidName
  | invalidInput
  | invalidData
  | unexpectedEnd
  | other
  deriving DecidableEq, Repr

namespace ReadFault

def kind : ReadFault → FaultKind
  | .missing => .notFound
  | .isDirectory => .isDirectory
  | .notDirectory => .notDirectory
  | .nameTooLong => .invalidName
  | .nulInPath => .invalidInput
  | .notText => .invalidData
  | .other _ => .other

def message : ReadFault → String
  | .missing => "No such file or directory (os error 2)"
  | .isDirectory => "Is a directory (os error 21)"
  | .notDirectory => "Not a directory (os error 20)"
  | .nameTooLong => "File name too long (os error 36)"
  | .nulInPath => "file name contained an unexpected NUL byte"
  | .notText => "stream did not contain valid UTF-8"
  | .other message => message

end ReadFault

/-- What reading each path gives. -/
abbrev Files := String → Except ReadFault ByteArray

def decodeText (bytes : ByteArray) : Except ReadFault String :=
  match String.fromUTF8? bytes with
  | some text => .ok text
  | none => .error .notText

theorem decodeText_eq_ok_iff {bytes : ByteArray} {text : String} :
    decodeText bytes = .ok text ↔ bytes = text.toUTF8 := by
  by_cases valid : bytes.IsValidUTF8
  · simp only [decodeText, String.fromUTF8?, dif_pos valid, Except.ok.injEq]
    constructor
    · rintro rfl
      rfl
    · rintro rfl
      rfl
  · simp only [decodeText, String.fromUTF8?, dif_neg valid, reduceCtorEq, false_iff]
    rintro rfl
    exact valid text.isValidUTF8

def Files.readText (files : Files) (path : String) : Except ReadFault String :=
  files path >>= decodeText

/-- A text is read where the file holds its UTF-8 bytes. -/
theorem Files.readText_eq_ok_iff {files : Files} {path text : String} :
    files.readText path = .ok text ↔ files path = .ok text.toUTF8 := by
  cases h : files path with
  | error fault => simp [readText, h, bind, Except.bind]
  | ok bytes => simp [readText, h, bind, Except.bind, decodeText_eq_ok_iff]

end FakeData
