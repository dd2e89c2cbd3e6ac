import FakeData.CommandLine.Words
import FakeData.Config
import FakeData.Number.Digits

/-!
# Invocations

What a command line asks for: settings, a task, and how many values of it to make. Settings that
are not given as options are taken from the environment.
-/
namespace FakeData.CommandLine

abbrev Environment := String → Option String

structure Invocation where
  configPath : Option String
  settings : Config
  count : Nat
  task : Task
  deriving DecidableEq, Repr

/-! ## Tasks -/

def taskGrammar? : String → Option Grammar
  | "first-name" => some ⟨[], []⟩
  | "last-name" => some ⟨[], []⟩
  | "full-name" => some ⟨[], []⟩
  | "email" => some ⟨["uppercase", "digits", "person-name"], ["domain", "separator"]⟩
  | "password" => some ⟨["uppercase", "digits", "special"], ["length"]⟩
  | "resolve" => some ⟨["correlated"], []⟩
  | _ => none

def number? (words : Words) (name : String) (standard : Nat) : Option Nat :=
  match words.option? name with
  | none => some standard
  | some text => (Number.word? text).map UInt64.toNat

/-- An address from a person's name or from random characters. A separator makes sense in a name
only. -/
def emailTask? (words : Words) : Option Task :=
  let domain := words.option? "domain"
  let separator := words.option? "separator"
  let uppercase := words.flag "uppercase"
  let digits := words.flag "digits"
  if words.flag "person-name" then some (.emailWithPersonName separator domain)
  else if separator.isSome then none
  else
    match domain with
    | some domain => some (.emailWithDomain uppercase digits domain)
    | none => some (.email uppercase digits)

def standardLength : Nat := 12

def passwordTask? (words : Words) : Option Task :=
  (number? words "length" standardLength).map fun length =>
    .password length ⟨words.flag "uppercase", words.flag "digits", words.flag "special"⟩

/-- The task with a name and its words. Only a request is an operand. -/
def task? (name : String) (words : Words) : Option Task :=
  match name, words.operands with
  | "first-name", [] => some .firstName
  | "last-name", [] => some .lastName
  | "full-name", [] => some .fullName
  | "email", [] => emailTask? words
  | "password", [] => passwordTask? words
  | "resolve", [request] =>
    some (.resolve request (if words.flag "correlated" then .correlated else .independent))
  | _, _ => none

/-! ## Settings -/

/-- The options that stand before the name of the task. -/
def grammar : Grammar :=
  ⟨[], ["config", "dataset-root", "country", "language", "seed", "count"]⟩

/-- A setting that must be readable if it is given, as an option or in the environment. -/
def setting? {α : Type} (words : Words) (env : Environment) (option name : String)
    (read : String → Option α) : Option (Option α) :=
  match words.option? option <|> env name with
  | none => some none
  | some text => (read text).map some

/-- A path, which must not be empty. -/
def path? (text : String) : Option String := if text = "" then none else some text

/-- Reads a command line, or gives nothing if it is misused. -/
def Invocation.parse (env : Environment) (args : List String) : Option Invocation := do
  let (words, rest) ← readWords grammar true args .none
  let name :: args := rest | none
  let taskGrammar ← taskGrammar? name
  let (taskWords, _) ← readWords taskGrammar false args .none
  let task ← task? name taskWords
  let configPath ← setting? words env "config" "DATAGEN_CONFIG" path?
  let datasetRoot ← setting? words env "dataset-root" "DATAGEN_DATASET_ROOT" path?
  let country ← setting? words env "country" "DATAGEN_COUNTRY" (Country.parse · |>.toOption)
  let language ← setting? words env "language" "DATAGEN_LANGUAGE" (Language.parse · |>.toOption)
  let seed ← setting? words env "seed" "DATAGEN_SEED" Number.word?
  let count ← number? words "count" 1
  return ⟨configPath, ⟨datasetRoot, country, language, seed⟩, count, task⟩

end FakeData.CommandLine
