import ReplicaKeeper.Cli.RunOptions

/-!
# Reading the command line

The first word that is no option names the command, and what follows belongs to the command.  The
value of an option stands after an equals sign or is the next word that does not start with a dash.
A word that has no place is reported before a faulty value that stands in front of it.  After two
dashes alone no word is an option.
-/

set_option autoImplicit false

namespace ReplicaKeeper.Cli

/-- What the program is to do. -/
inductive Command where
  | printDefinitions
  | run (config : Config)
  deriving DecidableEq, Repr

/-! ## Words -/

/-- The forms of words. -/
inductive Word where
  /-- Two dashes alone. -/
  | escape
  /-- A name after two dashes, perhaps with a value after an equals sign. -/
  | long (name : String) (value : Option String)
  /-- Letters after one dash. -/
  | short (letters : List Char)
  | plain
  deriving DecidableEq, Repr

/-- The form of a word.  A dash alone is a plain word. -/
def Word.ofString (word : String) : Word :=
  match word.toList with
  | ['-', '-'] => .escape
  | '-' :: '-' :: cs =>
      let name := String.ofList (cs.takeWhile (· ≠ '='))
      match cs.dropWhile (· ≠ '=') with
      | _ :: value => .long name (some (String.ofList value))
      | [] => .long name none
  | ['-'] => .plain
  | '-' :: letters => .short letters
  | _ => .plain

/-- A name after two dashes that is no option, as messages show it. -/
def shownLong (name : String) : String := "--" ++ name

/-! ## Commands -/

section

variable (environment : Environment)

/-- Help on a topic, unless the word that asks for it has a value. -/
def askHelp {α : Type} (topic : Topic) : Option String → Except Stop α
  | none => .error (.help (topic.text environment))
  | some value => .error (.surplusValue "--help" value)

/-- What the first of some letters after one dash asks for. -/
def readLetters {α : Type} (topic : Topic) : List Char → Except Stop α
  | 'h' :: _ => .error (.help (topic.text environment))
  | 'V' :: _ =>
      if topic = .program then .error .version else .error (.unknownArgument "-V")
  | c :: _ => .error (.unknownArgument (String.ofList ['-', c]))
  | [] => .error (.unknownArgument "-")

/-- The words after the command that prints the definitions. -/
def readDefinitions : (escaped : Bool) → List String → Except Stop Command
  | _, [] => .ok .printDefinitions
  | true, word :: _ => .error (.unknownArgument word)
  | false, word :: words =>
      match Word.ofString word with
      | .escape => readDefinitions true words
      | .long "help" value => askHelp environment .definitions value
      | .long name _ => .error (.unknownArgument (shownLong name))
      | .short letters => readLetters environment .definitions letters
      | .plain => .error (.unknownArgument word)

/-- The words after the command that runs the controller. -/
def readRun : (escaped : Bool) → RunOptions → List String → Except Stop Command
  | _, options, [] => (options.finish environment).map .run
  | true, _, word :: _ => .error (.unknownArgument word)
  | false, options, word :: words =>
      match Word.ofString word with
      | .escape => readRun true options words
      | .long name value =>
          if name = DelayOption.retry.long then do
            readRun false (← options.name .retry value) words
          else if name = DelayOption.backoff.long then do
            readRun false (← options.name .backoff value) words
          else if name = lockName then
            match value with
            | some value => .error (.surplusValue lockShown value)
            | none => do readRun false (← options.raiseLock) words
          else if name = "help" then do
            if value.isNone then let _ ← options.settle
            askHelp environment .run value
          else .error (.unknownArgument (shownLong name))
      | .short letters => do
          if letters.head? = some 'h' then let _ ← options.settle
          readLetters environment .run letters
      | .plain =>
          match options.pending with
          | some (option, none) =>
              readRun false { options with pending := some (option, some word) } words
          | _ => .error (.unknownArgument word)

/-- The topic that a word names, when help is asked for by words. -/
def topic? : String → Option Topic
  | "export" => some .definitions
  | "run" => some .run
  | "help" => some .help
  | _ => none

/-- The words after the command that asks for help. -/
def readHelp : Topic → List String → Except Stop Command
  | topic, [] => .error (.help (topic.text environment))
  | topic, word :: words =>
      match topic, topic? word with
      | .program, some topic => readHelp topic words
      | _, _ => .error (.unknownCommand word)

/-- The words up to the command. -/
def readProgram : (escaped : Bool) → List String → Except Stop Command
  | _, [] => .error (.missingCommand (Topic.program.text environment))
  | true, word :: _ =>
      if (topic? word).isSome then .error (.unknownArgument word)
      else .error (.unknownCommand word)
  | false, word :: words =>
      match topic? word with
      | some .definitions => readDefinitions environment false words
      | some .run => readRun environment false {} words
      | some _ => readHelp environment .program words
      | none =>
          match Word.ofString word with
          | .escape => readProgram true words
          | .long "help" value => askHelp environment .program value
          | .long "version" none => .error .version
          | .long "version" (some value) => .error (.surplusValue "--version" value)
          | .long name _ => .error (.unknownArgument (shownLong name))
          | .short letters => readLetters environment .program letters
          | .plain => .error (.unknownCommand word)

end

/-- Reads a command line without the name of the program. -/
def parse (environment : Environment) (words : List String) : Except Stop Command :=
  readProgram environment false words

end ReplicaKeeper.Cli
