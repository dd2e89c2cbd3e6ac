/-!
# Mismatches

How a document can differ from the record that it should hold, whatever the format of the
document.
-/
namespace FakeData

inductive Mismatch where
  | wrongKind (found expected : String)
  | unknownCode (text : String) (known : List String)
  | duplicateField (name : String)
  | missingField (name : String)
  | wrongLength (length : Nat) (expected : String)
  deriving DecidableEq, Repr

def Mismatch.message : Mismatch → String
  | .wrongKind found expected => "invalid type: " ++ found ++ ", expected " ++ expected
  | .unknownCode text known =>
    "unknown variant `" ++ text ++ "`, expected one of " ++
      ", ".intercalate (known.map fun code => "`" ++ code ++ "`")
  | .duplicateField name => "duplicate field `" ++ name ++ "`"
  | .missingField name => "missing field `" ++ name ++ "`"
  | .wrongLength length expected =>
    "invalid length " ++ toString length ++ ", expected " ++ expected

end FakeData
