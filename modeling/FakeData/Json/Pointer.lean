import FakeData.Json.Basic
import FakeData.Number.Digits
import FakeData.Text.Pieces

/-!
# JSON pointers

A pointer is empty, or starts with `/` and has one segment after each slash. In a segment `~1`
stands for `/` and `~0` for `~`. A segment names a member of an object or, as a decimal number
without sign and without needless zeros, an item of a list.
-/
namespace FakeData.Json.Pointer

/-- Undoes the two escapes of a segment; any other `~` stands for itself. -/
def unescape : List Char → List Char
  | [] => []
  | '~' :: '1' :: cs => '/' :: unescape cs
  | '~' :: '0' :: cs => '~' :: unescape cs
  | c :: cs => c :: unescape cs

def escapeChar (c : Char) : List Char :=
  if c = '~' then ['~', '0'] else if c = '/' then ['~', '1'] else [c]

def escape (key : List Char) : List Char := key.flatMap escapeChar

def index? (segment : List Char) : Option Nat :=
  match segment with
  | '0' :: _ :: _ => none
  | digits => Number.digits? 10 digits

def child? (segment : List Char) : Json → Option Json
  | .object members => members.lookup (.ofList segment)
  | .array items => (index? segment).bind (items[·]?)
  | _ => none

def follow? : List (List Char) → Json → Option Json
  | [], value => some value
  | segment :: segments, value => (child? segment value).bind (follow? segments)

/-- The segments of a pointer, or nothing if it does not start with a slash. -/
def segments? (pointer : String) : Option (List (List Char)) :=
  match pointer.toList with
  | [] => some []
  | '/' :: cs => some ((Text.pieces '/' cs).map unescape)
  | _ => none

def lookup? (pointer : String) (document : Json) : Option Json :=
  (segments? pointer).bind (follow? · document)

/-- A pointer that leads somewhere is empty or starts with a slash. -/
theorem head?_of_lookup? {pointer : String} {document node : Json}
    (h : lookup? pointer document = some node) :
    pointer.toList.head? = none ∨ pointer.toList.head? = some '/' := by
  rw [lookup?, segments?] at h
  split at h
  · rename_i hnil
    simp [hnil]
  · rename_i hcons
    simp [hcons]
  · cases h

def ofKeys (keys : List String) : String :=
  .ofList (keys.flatMap fun key => '/' :: escape key.toList)

end FakeData.Json.Pointer
