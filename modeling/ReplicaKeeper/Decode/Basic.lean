import ReplicaKeeper.Decode.Error
import ReplicaKeeper.Time.Reader

/-!
# Decoders

A decoder makes a value of the domain from a document or says why it cannot.  Records are written
as objects.  The members that are present are decoded in the order of their names, so that the first
faulty one is reported, and only then required fields are missed, in the order in which the record
declares them.  Members with other names are passed over, whether they are readable or not.

Of members with one name a record refuses all but one, or it takes the last one and refuses none;
`Fields.field` and `Fields.lastField` are for the two.
-/

set_option autoImplicit false

namespace ReplicaKeeper

/-- Makes a value of `α` from a document. -/
abbrev Decoder (α : Type) := Document → Except DecodeError α

/-- What a decoder makes of a value. -/
def Json.decodeAs {α : Type} (decode : Decoder α) (value : Json) : Except DecodeError α :=
  decode value.document

/-- The members of a record in a document, in the order in which they are given. -/
abbrev Fields := List (String × Document)

namespace Decoder

variable {α : Type}

/-! ## Plain values -/

def string : Decoder String
  | .str s => .ok s
  | value => .error (.wrongType value.found "a string")

def bool : Decoder Bool
  | .bool b => .ok b
  | value => .error (.wrongType value.found "a boolean")

/-- A whole number between two bounds; `name` is what a message calls such numbers. -/
def integer (least greatest : Int) (name : String) : Decoder Int
  | .int n =>
      if least ≤ n ∧ n ≤ greatest then .ok n else .error (.wrongValue (.integer n) name)
  | value => .error (.wrongType value.found name)

def int32 : Decoder Int32 := fun value =>
  (integer Int32.minValue.toInt Int32.maxValue.toInt "i32" value).map Int32.ofInt

def int64 : Decoder Int64 := fun value =>
  (integer Int64.minValue.toInt Int64.maxValue.toInt "i64" value).map Int64.ofInt

/-- A number of at most 16 bits, as in the status of an answer. -/
def uint16 : Decoder Nat := fun value => (integer 0 65535 "u16" value).map Int.toNat

def time : Decoder Time
  | .str s =>
      match Time.parse s with
      | .ok time => .ok time
      | .error error => .error (.time error)
  | value => .error (.wrongType value.found "an RFC 3339 formatted date and time string")

/-- Any value. -/
def value : Decoder Json := fun document =>
  match document.toJson? with
  | some value => .ok value
  | none => .error .unreadable

/-! ## Combined values -/

/-- A document that must be readable throughout. -/
def readable (decode : Decoder α) : Decoder α := fun document =>
  if document.isReadable then decode document else .error .unreadable

/-- Null is the absence of a value. -/
def optional (decode : Decoder α) : Decoder (Option α)
  | .null => .ok none
  | value => (decode value).map some

def list (decode : Decoder α) : Decoder (List α)
  | .arr items => items.mapM decode
  | value => .error (.wrongType value.found "a sequence")

/-- A member with its name. -/
def named (member : Option String × Document) : Except DecodeError (String × Document) :=
  match member with
  | (some name, part) => .ok (name, part)
  | (none, _) => .error .unreadable

/-- The members of an object; `expected` is what a message calls it. -/
def members (expected : String) : Decoder Fields
  | .obj members => members.mapM named
  | value => .error (.wrongType value.found expected)

/-- The meaning of a word of a choice. -/
def meaning (words : List (String × α)) (word : String) : Except DecodeError α :=
  match words.lookup word with
  | some x => .ok x
  | none => .error (.unknownVariant word (words.map (·.1)))

/-- What may stand beside the word of a choice that is written as an object. -/
inductive Beside where
  | null
  | nullOrEmpty
  deriving DecidableEq, Repr

def Beside.allows : Beside → Document → Bool
  | _, .null => true
  | .nullOrEmpty, .obj [] => true
  | _, _ => false

/-- A choice between words.  A word may also be written as the only name of an object, with null as
its value or what else stands for nothing. -/
def choice (words : List (String × α)) (beside : Beside) : Decoder α
  | .str word => meaning words word
  | .obj [(some word, value)] => do
      let x ← meaning words word
      if beside.allows value then .ok x else .error (.wrongType value.found "unit")
  | .obj _ => .error (.wrongValue .map "map with a single key")
  | value => .error (.wrongType value.found "string or map")

end Decoder

/-! ## Fields of records -/

namespace Fields

variable {α : Type}

/-- The members under a name. -/
def under (fields : Fields) (name : String) : List Document :=
  (fields.filter fun field => field.1 = name).map (·.2)

/-- The decoded value of a member that may be given once; none when it is absent. -/
def field (fields : Fields) (name : String) (decode : Decoder α) :
    Except DecodeError (Option α) :=
  match fields.under name with
  | [] => .ok none
  | [value] => (decode value).map some
  | _ => .error (.duplicateField name)

/-- The decoded value of a member that may be given once; none when it is absent or null. -/
def optionalField (fields : Fields) (name : String) (decode : Decoder α) :
    Except DecodeError (Option α) :=
  (fields.field name decode.optional).map Option.join

/-- The decoded value of the last member under a name, of which none may be faulty; none when it is
absent. -/
def lastField (fields : Fields) (name : String) (decode : Decoder α) :
    Except DecodeError (Option α) :=
  ((fields.under name).mapM decode).map List.getLast?

/-- The same, and none also when the last member is null. -/
def lastOptionalField (fields : Fields) (name : String) (decode : Decoder α) :
    Except DecodeError (Option α) :=
  (fields.lastField name decode.optional).map Option.join

end Fields

/-- A field that must not be absent. -/
def required {α : Type} (name : String) : Option α → Except DecodeError α
  | some value => .ok value
  | none => .error (.missingField name)

/-! ## Records written as sequences -/

/-- Reads the elements of a sequence one by one; the state holds those that are left. -/
abbrev ElementReader (α : Type) := StateT (List Document) (Except DecodeError) α

namespace ElementReader

variable {α : Type}

/-- The next element; none at the end of the sequence. -/
def next (decode : Decoder α) : ElementReader (Option α) := fun elements =>
  match elements with
  | [] => .ok (none, [])
  | value :: elements => (decode value).map fun x => (some x, elements)

/-- The next element; the sequence must not end at this place. -/
def nextRequired (place : Nat) (expected : String) (decode : Decoder α) : ElementReader α := do
  match ← next decode with
  | some x => pure x
  | none => throw (.tooFewElements place expected)

/-- The next element; null and the end of the sequence are the absence of a value. -/
def nextOptional (decode : Decoder α) : ElementReader (Option α) := do
  return (← next decode.optional).join

/-- Reads a whole sequence; `surplus` is the error for elements after the last field. -/
def run (reader : ElementReader α) (surplus : Nat → DecodeError) (elements : List Document) :
    Except DecodeError α := do
  let (x, left) ← StateT.run reader elements
  if left.isEmpty then .ok x else .error (surplus elements.length)

end ElementReader

end ReplicaKeeper
