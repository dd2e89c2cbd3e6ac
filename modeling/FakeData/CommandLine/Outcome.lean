import FakeData.CommandLine.Invocation
import FakeData.Random.Sampler

/-!
# Outcomes

What a run of the program leaves behind: an exit code and what it writes. The exit code is 0 after
success, 1 after a failure, and 2 if the command line is misused.
-/
namespace FakeData.CommandLine

structure Outcome where
  code : Nat
  output : String
  error : String
  deriving DecidableEq, Repr

namespace Outcome

def misuse : Outcome := ⟨2, "", "usage: fake-data [OPTIONS] TASK\n"⟩

/-- A failure with its causes from the outside in, after some output. -/
def failure (output : String) (causes : List String) : Outcome :=
  ⟨1, output, "Error: " ++ ": ".intercalate causes ++ "\n"⟩

def excess : Outcome := ⟨101, "", Synthesis.excessMessage ++ "\n"⟩

end Outcome

def lines (values : List String) : String := String.join (values.map (· ++ "\n"))

def failureCauses (failure : Failure) : List String := failure.message :: failure.source?.toList

def outcomeOf : List String × Option Failure → Outcome
  | (values, none) => ⟨0, lines values, ""⟩
  | (values, some failure) => .failure (lines values) (failureCauses failure)

def registry : Nat := 0

namespace Invocation

/-- The dataset that the task of an invocation reads, once its configuration was read. -/
def datasetPath? (invocation : Invocation) (files : Files) : Option String := do
  let config ← (Config.load files invocation.configPath invocation.settings).toOption
  let (generator, _) ← (config.generator .empty registry).toOption
  let request ← invocation.task.request?
  let parsed ← (Request.parse request).toOption
  return generator.store.locate generator.locale parsed

/-- The outcome with some files. Without a seed, the values come from `key`. -/
def run (invocation : Invocation) (files : Files) (key : Random.Key) : Outcome :=
  match Config.load files invocation.configPath invocation.settings with
  | .error error =>
    .failure "" ["Failed to load configuration", error.message, error.cause]
  | .ok config =>
    match config.generator .empty registry with
    | .error error => .failure "" ["Failed to build generator", error.message, error.cause]
    | .ok (generator, _) =>
      if invocation.task.isExcessive ∧ invocation.count ≠ 0 then .excess
      else
        outcomeOf (generator.makeMany files invocation.task invocation.count (config.stream key))

end Invocation

def run (env : Environment) (files : Files) (key : Random.Key) (args : List String) : Outcome :=
  match Invocation.parse env args with
  | none => .misuse
  | some invocation => invocation.run files key

end FakeData.CommandLine
