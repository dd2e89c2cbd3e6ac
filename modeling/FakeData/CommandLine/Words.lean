/-!
# Words of a command line

Flags stand alone, options have a value, and both start with two dashes. A value follows its
option as the next word, which must not look like an option itself, or after an equals sign. Two
dashes alone make all further words operands. Neither flags nor options may be repeated.
-/
namespace FakeData.CommandLine

structure Grammar where
  flags : List String
  options : List String
  deriving DecidableEq, Repr

structure Words where
  flags : List String
  options : List (String × String)
  operands : List String
  deriving DecidableEq, Repr

namespace Words

def none : Words := ⟨[], [], []⟩

def flag (words : Words) (name : String) : Bool := words.flags.contains name

def option? (words : Words) (name : String) : Option String := words.options.lookup name

def addFlag? (words : Words) (name : String) : Option Words :=
  if words.flag name then .none else some { words with flags := words.flags ++ [name] }

def addOption? (words : Words) (name value : String) : Option Words :=
  if (words.option? name).isSome then .none
  else some { words with options := words.options ++ [(name, value)] }

def addOperands (words : Words) (operands : List String) : Words :=
  { words with operands := words.operands ++ operands }

end Words

/-- Whether a word looks like a flag or an option. A single dash does not. -/
def isDashed (word : String) : Bool :=
  match word.toList with
  | '-' :: _ :: _ => true
  | _ => false

/-- The name in a word that starts with two dashes, and the value after an equals sign. -/
def splitLong? (word : String) : Option (String × Option String) :=
  match word.toList with
  | '-' :: '-' :: s =>
    let name : String := .ofList (s.takeWhile (· != '='))
    match s.dropWhile (· != '=') with
    | [] => some (name, none)
    | _ :: value => some (name, some (.ofList value))
  | _ => none

/-- Reads words. With `leading` the first operand ends the reading; otherwise operands may stand
anywhere. Gives the words that are left, or nothing if some word is out of place. -/
def readWords (grammar : Grammar) (leading : Bool) :
    List String → Words → Option (Words × List String)
  | [], words => some (words, [])
  | word :: rest, words =>
    if word = "--" then if leading then none else some (words.addOperands rest, [])
    else if isDashed word then
      match splitLong? word with
      | none => none
      | some (name, value?) =>
        if grammar.flags.contains name then
          match value?, words.addFlag? name with
          | none, some words => readWords grammar leading rest words
          | _, _ => none
        else if grammar.options.contains name then
          match value?, rest with
          | some value, rest =>
            match words.addOption? name value with
            | some words => readWords grammar leading rest words
            | none => none
          | none, value :: rest =>
            match words.addOption? name value with
            | some words => if isDashed value then none else readWords grammar leading rest words
            | none => none
          | none, [] => none
        else none
    else if leading then some (words, word :: rest)
    else readWords grammar leading rest (words.addOperands [word])

end FakeData.CommandLine
