import ReplicaKeeper.Cli.Stop
import ReplicaKeeper.Json.Number

/-!
# The options of a run

The options of the command that runs the controller, collected word by word.  The value of an option
that comes as a word of its own is looked at when the next option comes, or at the end.
-/

set_option autoImplicit false

namespace ReplicaKeeper.Cli

/-! ## Numbers -/

/-- The greatest number of seconds, which has 64 bits. -/
def maxSeconds : Nat := 18446744073709551615

/-- Takes one more digit.  A character that is no digit is reported before a number that is too
large. -/
def takeDigit (n : Nat) (c : Char) : Except NumberError Nat :=
  if !c.isDigit then .error .invalidDigit
  else if maxSeconds < n * 10 + digitValue c then .error .tooLarge
  else .ok (n * 10 + digitValue c)

/-- Reads a number of seconds; a plus sign may stand in front. -/
def readSeconds (text : String) : Except NumberError Nat :=
  match text.toList with
  | [] => .error .empty
  | ['+'] => .error .invalidDigit
  | '+' :: digits => digits.foldlM takeDigit 0
  | digits => digits.foldlM takeDigit 0

/-! ## Options -/

/-- The options so far. -/
structure RunOptions where
  retry : Option Nat := none
  backoff : Option Nat := none
  lock : Option Bool := none
  /-- An option that was named last, with its value if that has come. -/
  pending : Option (DelayOption × Option String) := none

namespace RunOptions

def get (option : DelayOption) (options : RunOptions) : Option Nat :=
  match option with
  | .retry => options.retry
  | .backoff => options.backoff

/-- Sets an option to the number that a text stands for. -/
def set (option : DelayOption) (value : String) (options : RunOptions) : Except Stop RunOptions :=
  match readSeconds value with
  | .error error => .error (.badNumber option value error)
  | .ok n =>
      match option with
      | .retry => .ok { options with retry := some n }
      | .backoff => .ok { options with backoff := some n }

/-- Sets an option that must not have been set before. -/
def give (option : DelayOption) (value : String) (options : RunOptions) : Except Stop RunOptions :=
  if (options.get option).isSome then .error (.repeated option.shown)
  else options.set option value

/-- Settles the option that was named last. -/
def settle (options : RunOptions) : Except Stop RunOptions :=
  match options.pending with
  | none => .ok options
  | some (option, none) => .error (.missingValue option.shown)
  | some (option, some value) => { options with pending := none }.give option value

/-- Names an option. -/
def name (option : DelayOption) (value : Option String) (options : RunOptions) :
    Except Stop RunOptions := do
  let options ← options.settle
  match value with
  | some value => options.give option value
  | none => .ok { options with pending := some (option, none) }

/-- Raises the flag for optimistic locking. -/
def raiseLock (options : RunOptions) : Except Stop RunOptions := do
  let options ← options.settle
  if options.lock.isSome then .error (.repeated lockShown)
  else .ok { options with lock := some true }

/-- Takes the variable for an option that was not given. -/
def fillDelay (environment : Environment) (option : DelayOption) (options : RunOptions) :
    Except Stop RunOptions :=
  match options.get option, environment option.variableName with
  | none, some value => options.set option value
  | _, _ => .ok options

/-- Takes the variable for the flag if that was not given. -/
def fillLock (environment : Environment) (options : RunOptions) : Except Stop RunOptions :=
  match options.lock, environment lockVariable with
  | none, some "true" => .ok { options with lock := some true }
  | none, some "false" => .ok { options with lock := some false }
  | none, some "" => .error (.missingValue lockShown)
  | none, some value => .error (.badChoice value)
  | _, _ => .ok options

/-- The configuration at the end of the command line. -/
def finish (environment : Environment) (options : RunOptions) : Except Stop Config := do
  let options ← options.settle
  let options ← options.fillDelay environment .retry
  let options ← options.fillDelay environment .backoff
  let options ← options.fillLock environment
  return { retryDelay := options.retry.getD DelayOption.retry.default
           errorBackoff := options.backoff.getD DelayOption.backoff.default
           optimisticLock := options.lock.getD false }

end RunOptions

end ReplicaKeeper.Cli
