import ReplicaKeeper.Program

/-!
# The command line

Hands words and environment to the program, and writes down what it leaves behind.
-/

set_option autoImplicit false

namespace ReplicaKeeper.Program

/-- The variables that the program looks at. -/
def variableNames : List String :=
  [Cli.DelayOption.retry.variableName, Cli.DelayOption.backoff.variableName, Cli.lockVariable]

/-- The variables that are set, with their values. -/
def readSettings : IO (List (String × String)) :=
  variableNames.filterMapM fun name => do
    return (← IO.getEnv name).map fun value => (name, value)

end ReplicaKeeper.Program

open ReplicaKeeper in
/-- Runs the program; its exit code is that of the outcome. -/
def main (words : List String) : IO UInt32 := do
  let settings ← Program.readSettings
  let outcome := Program.run (Entries.get? settings) words
  IO.print outcome.output
  IO.eprint outcome.errors
  return outcome.exitCode.toUInt32
