/-!
# Text on a terminal

A text may hold control sequences, which change how a terminal shows what follows and are not shown
themselves.  `visible` is what remains of a text where control sequences mean nothing: they and all
control characters are left out, except those that are white space.

A sequence that is not complete hides what follows until another one starts.  So emphasis around a
word keeps the word from hiding anything else.
-/

set_option autoImplicit false

namespace ReplicaKeeper.Text

/-! ## Control sequences -/

/-- What a terminal is in the middle of. -/
inductive Terminal where
  /-- Nothing but text. -/
  | ground
  /-- After the character that starts a sequence. -/
  | escape
  /-- A sequence that a single character ends. -/
  | intermediate
  /-- A sequence with parameters. -/
  | control
  /-- The beginning of a string for a device. -/
  | deviceEntry
  /-- The parameters of a string for a device. -/
  | deviceParameters
  /-- A string for a device, shortly before its content. -/
  | deviceIntermediate
  /-- The content of a string that is for no user. -/
  | controlString
  /-- A command for the system around the terminal. -/
  | systemCommand
  deriving DecidableEq, Repr

/-- The character that starts a sequence. -/
def escapeChar : Char := '\x1b'

/-- Whether a code point is between two others. -/
def within (least greatest : Nat) (c : Char) : Bool := least ≤ c.toNat && c.toNat ≤ greatest

/-- Whether the bytes of a character include the one that ends a string. -/
def hasTerminator (c : Char) : Bool := (String.utf8EncodeChar c).contains 0x9c

namespace Terminal

/-- What a terminal is in the middle of after a character that is not shown. -/
def after (c : Char) (terminal : Terminal) : Terminal :=
  if c = escapeChar then .escape
  else if c = '\x18' || c = '\x1a' then .ground
  else
    match terminal with
    | .ground => .ground
    | .escape =>
        if within 0x20 0x2f c then .intermediate
        else if c = '[' then .control
        else if c = ']' then .systemCommand
        else if c = 'P' then .deviceEntry
        else if c = 'X' || c = '^' || c = '_' then .controlString
        else if within 0x30 0x7e c then .ground
        else .escape
    | .intermediate => if within 0x30 0x7e c then .ground else .intermediate
    | .control => if within 0x40 0x7e c then .ground else .control
    | .deviceEntry =>
        if within 0x20 0x2f c then .deviceIntermediate
        else if c = ':' || within 0x40 0x7e c then .controlString
        else if within 0x30 0x3f c then .deviceParameters
        else .deviceEntry
    | .deviceParameters =>
        if within 0x20 0x2f c then .deviceIntermediate
        else if c = ':' || within 0x3c 0x7e c then .controlString
        else .deviceParameters
    | .deviceIntermediate => if within 0x30 0x7e c then .controlString else .deviceIntermediate
    | .controlString => if hasTerminator c then .ground else .controlString
    | .systemCommand => if c = '\x07' then .ground else .systemCommand

/-- The control characters that are white space. -/
def isLayout (c : Char) : Bool := c = '\t' || c = '\n' || c = '\x0c' || c = '\r'

/-- Whether a character is shown. -/
def shows (c : Char) : Terminal → Bool
  | .ground => isLayout c || (0x20 ≤ c.toNat && c ≠ '\x7f')
  | .escape | .intermediate | .control => isLayout c
  | _ => false

end Terminal

/-! ## Visible text -/

/-- What is visible of the characters that come to a terminal.  A character that is shown ends what
the terminal was in the middle of. -/
def visibleFrom : Terminal → List Char → List Char
  | _, [] => []
  | terminal, c :: cs =>
      if terminal.shows c then c :: visibleFrom .ground cs else visibleFrom (terminal.after c) cs

/-- What is visible of a text. -/
def visible (s : String) : String := String.ofList (visibleFrom .ground s.toList)

/-! ## Emphasis -/

/-- The sequence that ends every emphasis. -/
def reset : List Char := [escapeChar, '[', '0', 'm']

/-- A text in bold print. -/
def bold (s : String) : String :=
  String.ofList ([escapeChar, '[', '1', 'm'] ++ s.toList ++ reset)

/-- A text in bold print and underlined. -/
def underlined (s : String) : String :=
  String.ofList ([escapeChar, '[', '1', 'm', escapeChar, '[', '4', 'm'] ++ s.toList ++ reset)

end ReplicaKeeper.Text
