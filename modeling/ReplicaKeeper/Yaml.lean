import ReplicaKeeper.Decimal.Notation
import ReplicaKeeper.Json.Basic

/-!
# Writing YAML documents

Documents are in block style, with two spaces for each level.  An array that is the value of a
member is not indented further.  Empty arrays and objects are written in brackets.  A text stands
without quotes where it cannot be mistaken for something else.
-/

set_option autoImplicit false

namespace ReplicaKeeper.Yaml

/-! ## Texts -/

/-- The texts that mean something else without quotes. -/
def reserved : List String :=
  ["~", "null", "Null", "NULL", "true", "True", "TRUE", "false", "False", "FALSE"]

/-- Whether a text without quotes may start with a character. -/
def isStart (c : Char) : Bool := c.isAlpha || c = '.' || c = '/' || c = '_' || c = '$'

/-- Whether a colon ends a text or a word of it, or a number sign starts a word. -/
def hasSeparator : List Char → Bool
  | [':'] => true
  | ':' :: ' ' :: _ => true
  | ' ' :: '#' :: _ => true
  | _ :: rest => hasSeparator rest
  | [] => false

/-- Whether a text can stand without quotes. -/
def isPlain (text : String) : Bool :=
  let cs := text.toList
  cs.head?.any isStart && !reserved.contains text && !hasSeparator cs &&
    cs.getLast? ≠ some ' ' && cs.all fun c => 0x20 ≤ c.toNat && c.toNat ≠ 0x7f

/-- A text, in single quotes where it needs them. -/
def quoted (text : String) : String :=
  if isPlain text then text
  else "'" ++ text.replace "'" "''" ++ "'"

/-! ## Values -/

/-- A value in one line; an array or an object counts as empty. -/
def inline : Json → String
  | .null => "null"
  | .bool b => toString b
  | .int n => toString n
  | .float x => x.text
  | .str s => quoted s
  | .arr _ => "[]"
  | .obj _ => "\x7b\x7d"

/-- Puts a line one level deeper. -/
def indent (line : String) : String := "  " ++ line

/-- The lines of an item, from the lines of its value. -/
def itemBlock : List String → List String
  | [] => []
  | line :: lines => ("- " ++ line) :: lines.map indent

/-- The lines of a member, from its name, its value and the lines of that. -/
def memberBlock (name : String) (value : Json) (lines : List String) : List String :=
  match value with
  | .arr (_ :: _) => (quoted name ++ ":") :: lines
  | .obj (_ :: _) => (quoted name ++ ":") :: lines.map indent
  | _ => [quoted name ++ ": " ++ inline value]

mutual

/-- The lines of a value. -/
def valueLines : Json → List String
  | .arr (item :: items) => itemBlock (valueLines item) ++ itemLines items
  | .obj ((name, value) :: members) =>
      memberBlock name value (valueLines value) ++ memberLines members
  | value => [inline value]

def itemLines : List Json → List String
  | [] => []
  | item :: items => itemBlock (valueLines item) ++ itemLines items

def memberLines : List (String × Json) → List String
  | [] => []
  | (name, value) :: members => memberBlock name value (valueLines value) ++ memberLines members

end

/-- The document of a value. -/
def write (value : Json) : String := String.join ((valueLines value).map (· ++ "\n"))

end ReplicaKeeper.Yaml
