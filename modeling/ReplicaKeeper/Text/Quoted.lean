import ReplicaKeeper.Text.Hidden

/-!
# Quoted texts in messages

A text between double quotes.  Quotes, backslashes, line ends and tabs have short escapes, and a
character without a picture is written by its number.
-/

set_option autoImplicit false

namespace ReplicaKeeper.Text

/-- A character inside a quoted text. -/
def quotedChar (c : Char) : List Char :=
  match c with
  | '\x00' => ['\\', '0']
  | '\t' => ['\\', 't']
  | '\r' => ['\\', 'r']
  | '\n' => ['\\', 'n']
  | '"' => ['\\', '"']
  | '\\' => ['\\', '\\']
  | c => if isHidden c then ['\\', 'u', '\x7b'] ++ Nat.toDigits 16 c.toNat ++ ['\x7d'] else [c]

/-- A text as messages quote it. -/
def quoted (s : String) : String := String.ofList ('"' :: s.toList.flatMap quotedChar ++ ['"'])

end ReplicaKeeper.Text
