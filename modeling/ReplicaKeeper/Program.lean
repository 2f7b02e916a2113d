import ReplicaKeeper.Cli.Parser
import ReplicaKeeper.Resource.Definition

/-!
# The program

What a run of the program does, as a function of its words and its environment.
-/

set_option autoImplicit false

namespace ReplicaKeeper.Program

open Cli

/-- What a run leaves behind. -/
structure Outcome where
  exitCode : Nat
  /-- What is written to the standard output. -/
  output : String
  /-- What is written to the standard error. -/
  errors : String
  deriving DecidableEq, Repr

/-- Tells why there is nothing to do: what was asked for on the output, all else as an error. -/
def Outcome.ofStop (stop : Stop) : Outcome :=
  if stop.isAnswer then ⟨stop.exitCode, stop.text, ""⟩ else ⟨stop.exitCode, "", stop.text ++ "\n"⟩

/-- Runs the program where no cluster is configured. -/
def run (environment : Environment) (words : List String) : Outcome :=
  match parse environment words with
  | .error stop => .ofStop stop
  | .ok .printDefinitions => ⟨0, ResourceDefinition.stream, ""⟩
  | .ok (.run _) => ⟨1, "", "Error: no cluster is configured\n"⟩

end ReplicaKeeper.Program
