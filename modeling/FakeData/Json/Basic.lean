import FakeData.Bindings
import FakeData.Number.Binary64
import FakeData.Text.Quoted

/-!
# JSON documents

The members of an object are kept in the order in which they are written. An object read without
a check for repeated keys may hold one key several times; `lastWins` then keeps the last value of
each key at the place of its first.
-/
namespace FakeData

/-- A number is an integer of a machine word, or a double. -/
inductive JsonNumber where
  | integer (value : Int)
  | double (bits : Number.Bits)
  deriving DecidableEq, Repr

inductive Json where
  | null
  | bool (value : Bool)
  | number (value : JsonNumber)
  | string (value : String)
  | array (items : List Json)
  | object (members : List (String × Json))

namespace Json

def describe : Json → String
  | .null => "null"
  | .bool value => "boolean `" ++ (if value then "true" else "false") ++ "`"
  | .number (.integer value) => "integer `" ++ toString value ++ "`"
  | .number (.double bits) => "floating point `" ++ bits.text .document ++ "`"
  | .string value => "string " ++ Text.quote value
  | .array _ => "sequence"
  | .object _ => "map"

mutual

/-- The document in which every repeated key keeps its last value. -/
def lastWins : Json → Json
  | .array items => .array (lastWinsItems items)
  | .object members => .object (lastWinsMembers [] members)
  | other => other

def lastWinsItems : List Json → List Json
  | [] => []
  | item :: items => lastWins item :: lastWinsItems items

/-- Goes on with the members, after those that are already `kept`. -/
def lastWinsMembers (kept : List (String × Json)) :
    List (String × Json) → List (String × Json)
  | [] => kept
  | (key, value) :: members => lastWinsMembers (Bindings.set key (lastWins value) kept) members

end

/-! ## Equality -/

mutual

def same : Json → Json → Bool
  | .null, .null => true
  | .bool a, .bool b => a == b
  | .number a, .number b => a == b
  | .string a, .string b => a == b
  | .array a, .array b => sameItems a b
  | .object a, .object b => sameMembers a b
  | _, _ => false

def sameItems : List Json → List Json → Bool
  | [], [] => true
  | a :: as, b :: bs => same a b && sameItems as bs
  | _, _ => false

def sameMembers : List (String × Json) → List (String × Json) → Bool
  | [], [] => true
  | (key, a) :: as, (other, b) :: bs => key == other && same a b && sameMembers as bs
  | _, _ => false

end

mutual

theorem same_iff (a b : Json) : same a b = true ↔ a = b := by
  cases a <;> cases b <;> simp [same, sameItems_iff, sameMembers_iff]

theorem sameItems_iff (as bs : List Json) : sameItems as bs = true ↔ as = bs := by
  cases as <;> cases bs <;> simp [sameItems, same_iff, sameItems_iff]

theorem sameMembers_iff (as bs : List (String × Json)) : sameMembers as bs = true ↔ as = bs := by
  match as, bs with
  | [], [] => simp [sameMembers]
  | [], _ :: _ => simp [sameMembers]
  | _ :: _, [] => simp [sameMembers]
  | (key, a) :: as, (other, b) :: bs =>
    simp [sameMembers, same_iff a b, sameMembers_iff as bs, and_assoc]

end

instance : DecidableEq Json := fun a b => decidable_of_iff _ (same_iff a b)

end Json

end FakeData
