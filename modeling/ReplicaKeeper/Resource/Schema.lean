import ReplicaKeeper.Json.Basic

/-!
# Schemas

A schema says what values a field of a resource may have.  Schemas are part of the definition that
makes a kind of resource known to a server.
-/

set_option autoImplicit false

namespace ReplicaKeeper

/-- What a schema says besides the shape of the values. -/
structure SchemaNotes where
  title : Option String := none
  description : Option String := none
  nullable : Bool := false
  default : Option Json := none

/-- A schema. -/
inductive Schema where
  /-- Every value. -/
  | any
  /-- Texts; without choices every text. -/
  | text (notes : SchemaNotes) (format : Option String) (choices : List String)
  /-- Whole numbers of 32 bits that are not negative. -/
  | count (notes : SchemaNotes)
  | array (notes : SchemaNotes) (items : Schema)
  /-- Objects with fields, each with its name and whether it must be present, in the order of their
  names. -/
  | object (notes : SchemaNotes) (fields : List (String × Bool × Schema))

namespace Schema

/-! ## Common schemas -/

/-- Every text. -/
def string : Schema := .text {} none []

/-- Every text, or null. -/
def nullableString : Schema := .text { nullable := true } none []

/-- One of some texts. -/
def choice (choices : List String) (description : Option String) : Schema :=
  .text { description } none choices

/-! ## As JSON -/

/-- The fields of a schema, from what it says besides the shape and what it says of that. -/
def fields (type : String) (notes : SchemaNotes) (choices : List String)
    (format : Option String) (items minimum properties : Option Json) (required : List String) :
    Json :=
  let listed (names : List String) : Option Json :=
    if names.isEmpty then none else some (.arr (names.map .str))
  .record [("default", notes.default), ("description", notes.description.map .str),
    ("enum", listed choices), ("format", format.map .str), ("items", items), ("minimum", minimum),
    ("nullable", if notes.nullable then some (.bool true) else none), ("properties", properties),
    ("required", listed required), ("title", notes.title.map .str), ("type", some (.str type))]

mutual

def encode : Schema → Json
  | .any => .emptyObject
  | .text notes format choices => fields "string" notes choices format none none none []
  | .count notes =>
      fields "integer" notes [] (some "int32") none (some (.float .zero)) none []
  | .array notes items => fields "array" notes [] none (some (encode items)) none none []
  | .object notes properties =>
      fields "object" notes [] none none none (some (.obj (encodeProperties properties)))
        (properties.filterMap fun property => if property.2.1 then some property.1 else none)

def encodeProperties : List (String × Bool × Schema) → Members
  | [] => []
  | (name, _, schema) :: properties => (name, encode schema) :: encodeProperties properties

end

end Schema

end ReplicaKeeper
