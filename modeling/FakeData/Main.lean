import FakeData.CommandLine.Outcome

/-!
# The program

Reads the command line, the environment and the files that it leads to, and writes the outcome.
-/
namespace FakeData.Main

/-- The fault with a number of the system, which may be given as a negative number. -/
def faultOfCode (number : UInt32) (text : String) : ReadFault :=
  let code := if number < 0x80000000 then number else 0 - number
  if code = 2 then .missing
  else if code = 20 then .notDirectory
  else if code = 21 then .isDirectory
  else if code = 36 then .nameTooLong
  else .other (text ++ " (os error " ++ toString code ++ ")")

def readFault : IO.Error → ReadFault
  | .noFileOrDirectory _ _ _ => .missing
  | .inappropriateType _ code text => faultOfCode code text
  | .invalidArgument _ code text => faultOfCode code text
  | .permissionDenied _ code text => faultOfCode code text
  | .otherError code text => faultOfCode code text
  | error => .other (toString error)

def readFile (path : String) : IO (Except ReadFault ByteArray) := do
  if path.toList.contains '\x00' then return .error .nulInPath
  try
    return .ok (← IO.FS.readBinFile path)
  catch error => return .error (readFault error)

def withFile (files : Files) (path : String) (bytes : Except ReadFault ByteArray) : Files :=
  fun other => if other = path then bytes else files other

def noFiles : Files := fun _ => .error .missing

def environmentNames : List String :=
  ["DATAGEN_CONFIG", "DATAGEN_DATASET_ROOT", "DATAGEN_COUNTRY", "DATAGEN_LANGUAGE", "DATAGEN_SEED"]

def readEnvironment : IO CommandLine.Environment := do
  let values ← environmentNames.mapM fun name => return (name, ← IO.getEnv name)
  return fun name => (values.lookup name).join

def readKey : IO Random.Key := do
  let bytes ← IO.getRandomBytes 32
  let byte (i : Nat) : UInt32 := (bytes.data.getD i 0).toUInt32
  return .ofFn fun i =>
    byte (4 * i) ||| (byte (4 * i + 1) <<< 8) ||| (byte (4 * i + 2) <<< 16) |||
      (byte (4 * i + 3) <<< 24)

def readFiles (invocation : CommandLine.Invocation) : IO Files := do
  let mut files := noFiles
  if let some path := invocation.configPath then
    files := withFile files path (← readFile path)
  if let some path := invocation.datasetPath? files then
    files := withFile files path (← readFile path)
  return files

def outcome (args : List String) : IO CommandLine.Outcome := do
  match CommandLine.Invocation.parse (← readEnvironment) args with
  | none => return .misuse
  | some invocation => return invocation.run (← readFiles invocation) (← readKey)

end FakeData.Main

def main (args : List String) : IO UInt32 := do
  let outcome ← FakeData.Main.outcome args
  IO.print outcome.output
  IO.eprint outcome.error
  return .ofNat outcome.code
