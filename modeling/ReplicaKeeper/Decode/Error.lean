import ReplicaKeeper.Decimal.Notation
import ReplicaKeeper.Json.Document
import ReplicaKeeper.Text.Quoted

/-!
# Why a value cannot be decoded

A decoder that meets a value of another form, a missing field or a wrong time says so with a
`DecodeError`.  `DecodeError.message` is its wording.
-/

set_option autoImplicit false

namespace ReplicaKeeper

/-- The form of a value that a decoder found. -/
inductive Found where
  | null
  | bool (b : Bool)
  | integer (n : Int)
  | float (x : Binary64)
  | text (s : String)
  | sequence
  | map
  /-- A part of a document that has no value. -/
  | unreadable
  deriving DecidableEq, Repr

/-- The form of a document. -/
def Document.found : Document → Found
  | .null => .null
  | .bool b => .bool b
  | .int n => .integer n
  | .float x => .float x
  | .str s => .text s
  | .arr _ => .sequence
  | .obj _ => .map
  | .unreadable => .unreadable

/-- The wording of a form. -/
def Found.describe : Found → String
  | .null => "null"
  | .bool b => "boolean \x60" ++ toString b ++ "\x60"
  | .integer n => "integer \x60" ++ toString n ++ "\x60"
  | .float x => "floating point \x60" ++ x.text ++ "\x60"
  | .text s => "string " ++ Text.quoted s
  | .sequence => "sequence"
  | .map => "map"
  | .unreadable => "unreadable part"

/-- Why a text is no time. -/
inductive TimeError where
  /-- The text ends before the time is complete. -/
  | tooShort
  /-- A character stands where the grammar has another one. -/
  | badCharacter
  /-- A part of the time, or the day it names, does not exist. -/
  | outOfRange
  /-- The local time exists, but not the moment that its offset makes of it. -/
  | noSuchMoment
  /-- Something follows the time. -/
  | trailing
  deriving DecidableEq, Repr

def TimeError.message : TimeError → String
  | .tooShort => "premature end of input"
  | .badCharacter => "input contains invalid characters"
  | .outOfRange => "input is out of range"
  | .noSuchMoment => "no possible date and time matching input"
  | .trailing => "trailing input"

/-- Why a value cannot be decoded. -/
inductive DecodeError where
  /-- The value has another form than the expected one. -/
  | wrongType (found : Found) (expected : String)
  /-- The value has the right form but is not one of the expected values. -/
  | wrongValue (found : Found) (expected : String)
  /-- A word is none of the allowed ones. -/
  | unknownVariant (word : String) (allowed : List String)
  /-- A required field is absent. -/
  | missingField (name : String)
  /-- A field that a record has once is given repeatedly. -/
  | duplicateField (name : String)
  /-- A record written as a sequence ends before its required fields. -/
  | tooFewElements (count : Nat) (expected : String)
  /-- A record written as a sequence has more elements than fields. -/
  | surplusElements (count : Nat)
  /-- The same in a record inside a status, where the number of fields is known. -/
  | surplusElementsAfter (count fields : Nat)
  | time (error : TimeError)
  /-- A part of the document has no value, or a member has no name. -/
  | unreadable
  deriving DecidableEq, Repr

namespace DecodeError

/-- A word between the marks that set it off in a message. -/
def marked (word : String) : String := "\x60" ++ word ++ "\x60"

/-- The allowed words of a choice. -/
def choices : List String → String
  | [] => "there are no variants"
  | [a] => "expected " ++ marked a
  | [a, b] => "expected " ++ marked a ++ " or " ++ marked b
  | words => "expected one of " ++ String.intercalate ", " (words.map marked)

/-- The wording of a decoding error. -/
def message : DecodeError → String
  | wrongType found expected => "invalid type: " ++ found.describe ++ ", expected " ++ expected
  | wrongValue found expected => "invalid value: " ++ found.describe ++ ", expected " ++ expected
  | unknownVariant word allowed => "unknown variant " ++ marked word ++ ", " ++ choices allowed
  | missingField name => "missing field " ++ marked name
  | duplicateField name => "duplicate field " ++ marked name
  | tooFewElements count expected =>
      "invalid length " ++ toString count ++ ", expected " ++ expected
  | surplusElements count =>
      "invalid length " ++ toString count ++ ", expected fewer elements in array"
  | surplusElementsAfter count fields =>
      "invalid length " ++ toString count ++ ", expected " ++ toString fields ++
        (if fields = 1 then " element in sequence" else " elements in sequence")
  | time error => error.message
  | unreadable => "unreadable document"

end DecodeError

end ReplicaKeeper
