import ReplicaKeeper.Cli.Option

/-!
# Command lines without a command to carry out

A command line may ask for help or for the version, or it is faulty.  Both end the program before it
does anything else, with exit codes of their own.  What a message repeats of the command line is
emphasised in it, so that a control sequence hides nothing else.
-/

set_option autoImplicit false

namespace ReplicaKeeper.Cli

/-- Why a text is no number of seconds. -/
inductive NumberError where
  | empty
  | invalidDigit
  | tooLarge
  deriving DecidableEq, Repr

def NumberError.message : NumberError → String
  | .empty => "cannot parse integer from empty string"
  | .invalidDigit => "invalid digit found in string"
  | .tooLarge => "number too large to fit in target type"

/-- Why a command line names nothing to do. -/
inductive Stop where
  /-- Help was asked for; `text` is the help. -/
  | help (text : String)
  | version
  /-- No command was given; `text` is the help of the program. -/
  | missingCommand (text : String)
  | unknownArgument (shown : String)
  | unknownCommand (word : String)
  /-- An option has no value. -/
  | missingValue (shown : String)
  /-- The value of an option is no number. -/
  | badNumber (option : DelayOption) (value : String) (error : NumberError)
  /-- The variable for the flag holds something other than a truth value. -/
  | badChoice (value : String)
  | repeated (shown : String)
  /-- A flag was given a value. -/
  | surplusValue (shown value : String)
  deriving DecidableEq, Repr

namespace Stop

/-- What is told: an answer, or what is wrong. -/
def text : Stop → String
  | help text | missingCommand text => text
  | version => versionText
  | unknownArgument shown => "error: unexpected argument '" ++ Text.visible shown ++ "' found"
  | unknownCommand word => "error: unrecognized subcommand '" ++ Text.visible word ++ "'"
  | missingValue shown =>
      "error: a value is required for '" ++ shown ++ "' but none was supplied"
  | badNumber option value error =>
      "error: invalid value '" ++ Text.visible value ++ "' for '" ++ option.shown ++ "': " ++
        error.message
  | badChoice value =>
      "error: invalid value '" ++ Text.visible value ++ "' for '" ++ lockShown ++ "'"
  | repeated shown => "error: the argument '" ++ shown ++ "' cannot be used multiple times"
  | surplusValue shown value =>
      "error: unexpected value '" ++ Text.visible value ++ "' for '" ++ shown ++
        "' found; no more were expected"

/-- Whether the text was asked for. -/
def isAnswer : Stop → Bool
  | help _ | version => true
  | _ => false

/-- What is shown: an answer as a whole, and of an error the first line. -/
def message (stop : Stop) : String :=
  if stop.isAnswer then stop.text else Text.firstLine stop.text

/-- The exit code of a program that stops. -/
def exitCode (stop : Stop) : Nat := if stop.isAnswer then 0 else 2

end Stop

end ReplicaKeeper.Cli
