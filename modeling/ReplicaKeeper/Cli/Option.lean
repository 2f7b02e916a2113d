import ReplicaKeeper.Config
import ReplicaKeeper.Text.Line
import ReplicaKeeper.Text.Terminal

/-!
# Options of the command line

The commands of the program, the options of the command that runs the controller, and the texts that
explain them.  An option that is not given may be set by a variable of the environment.
-/

set_option autoImplicit false

namespace ReplicaKeeper.Cli

/-- The name under which the program is called. -/
def programName : String := "manual_scaler_controller"

def programVersion : String := "0.1.0"

/-- The variables of the environment. -/
abbrev Environment := String → Option String

/-! ## Options -/

/-- An option whose value is a number of seconds. -/
inductive DelayOption where
  /-- The delay after a failure that was reported on the status. -/
  | retry
  /-- The delay after a reconcile that failed outright. -/
  | backoff
  deriving DecidableEq, Repr

namespace DelayOption

/-- The name of an option after two dashes. -/
def long : DelayOption → String
  | retry => "retry-delay-secs"
  | backoff => "error-backoff-secs"

/-- The name that stands for the value. -/
def valueName : DelayOption → String
  | retry => "RETRY_DELAY_SECS"
  | backoff => "ERROR_BACKOFF_SECS"

/-- The variable that sets the option. -/
def variableName (option : DelayOption) : String := "MANUAL_SCALER_" ++ option.valueName

def default : DelayOption → Nat
  | retry => 30
  | backoff => 10

/-- An option as messages show it. -/
def shown (option : DelayOption) : String :=
  "--" ++ option.long ++ " <" ++ option.valueName ++ ">"

def about : DelayOption → String
  | retry => "Seconds to wait before retrying a reconcile that reported an error on the status"
  | backoff => "Seconds to wait before retrying a reconcile that failed outright"

end DelayOption

/-- The name of the flag for optimistic locking. -/
def lockName : String := "optimistic-lock"

/-- The flag as messages show it. -/
def lockShown : String := "--" ++ lockName

/-- The variable that sets the flag. -/
def lockVariable : String := "MANUAL_SCALER_OPTIMISTIC_LOCK"

/-! ## Help -/

/-- What help is asked about. -/
inductive Topic where
  | program
  | definitions
  | run
  | help
  deriving DecidableEq, Repr

namespace Topic

/-- What a topic is about, in a line. -/
def about : Topic → String
  | program => "Scales a workload's Deployment to the replica count of its ManualScalerTrait"
  | definitions => "Print the custom resource definitions as YAML"
  | run => "Run the controller against the current kubeconfig context"
  | help => "Print this message or the help of the given subcommand(s)"

/-- How far the explanation of an option is set in. -/
def explanationIndent : Nat := 10

/-- The note on the variable that sets an option. -/
def variableNote (environment : Environment) (name : String) : String :=
  "[env: " ++ name ++ "=" ++ (environment name).getD "" ++ "]"

/-- The explanation of an option. -/
def explanation (text : String) : String :=
  Text.setIn explanationIndent ("\n" ++ text)

/-- An option with its explanation. -/
def delayLines (environment : Environment) (option : DelayOption) : String :=
  "      " ++ Text.bold ("--" ++ option.long) ++ " <" ++ option.valueName ++ ">" ++
    explanation (option.about ++ " " ++ variableNote environment option.variableName ++
      " [default: " ++ toString option.default ++ "]")

/-- The line on how to call the program. -/
def usage (words : String) : String :=
  Text.underlined "Usage:" ++ " " ++ Text.bold programName ++ " " ++ words

/-- The names under which help is asked for. -/
def helpNames : String := Text.bold "-h" ++ ", " ++ Text.bold "--help"

/-- The names under which the version is asked for. -/
def versionNames : String := Text.bold "-V" ++ ", " ++ Text.bold "--version"

/-- A help text, as parts that each end a line.  Headings and names are emphasised. -/
def parts (environment : Environment) : Topic → List String
  | program =>
      [about program, "", usage "<COMMAND>", "", Text.underlined "Commands:",
        "  " ++ Text.bold "export" ++ "  " ++ about definitions,
        "  " ++ Text.bold "run" ++ "     " ++ about run,
        "  " ++ Text.bold "help" ++ "    " ++ about help, "", Text.underlined "Options:",
        "  " ++ helpNames ++ "     Print help", "  " ++ versionNames ++ "  Print version"]
  | definitions =>
      [about definitions, "", usage "export", "", Text.underlined "Options:",
        "  " ++ helpNames ++ "  Print help"]
  | run =>
      [about run, "", usage "run [OPTIONS]", "", Text.underlined "Options:",
        delayLines environment .retry, delayLines environment .backoff,
        "      " ++ Text.bold lockShown ++
          explanation ("Make the Deployment patch fail if the Deployment changed since it was " ++
            "read " ++ variableNote environment lockVariable),
        "  " ++ helpNames ++ explanation "Print help"]
  | help =>
      [about help, "", usage "help [COMMAND]...", "", Text.underlined "Arguments:",
        "  [COMMAND]...  Print help for the subcommand(s)"]

/-- A help text as it is shown.  A variable may hold a control sequence that hides what follows the
note on it, up to the next name. -/
def text (environment : Environment) (topic : Topic) : String :=
  Text.visible (String.join ((topic.parts environment).map (· ++ "\n")))

end Topic

/-- The text that tells the version. -/
def versionText : String := programName ++ " " ++ programVersion ++ "\n"

end ReplicaKeeper.Cli
