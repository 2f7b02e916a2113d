import ReplicaKeeper.Decode.Basic

/-!
# References between objects

An object's references point at objects in its own namespace.  A reference with a uid means one
incarnation of the object, one without means whatever object has the name.
-/

set_option autoImplicit false

namespace ReplicaKeeper

/-- A reference to an object in the same namespace. -/
structure TypedReference where
  apiVersion : Option String
  kind : Option String
  name : String
  uid : Option String
  deriving DecidableEq, Repr, Inhabited

namespace TypedReference

def encode (reference : TypedReference) : Json :=
  .record [("apiVersion", reference.apiVersion.map .str), ("kind", reference.kind.map .str),
    ("name", some (.str reference.name)), ("uid", reference.uid.map .str)]

/-- The fields in the order of their declaration, as elements of a sequence. -/
def elements : ElementReader TypedReference := do
  let expected := "struct TypedReference with 4 elements"
  let apiVersion ← .nextOptional .string
  let kind ← .nextOptional .string
  let name ← .nextRequired 2 expected .string
  let uid ← .nextOptional .string
  return ⟨apiVersion, kind, name, uid⟩

def decode : Decoder TypedReference
  | .arr items => elements.run .surplusElements items
  | value => do
      let members ← Decoder.members "struct TypedReference" value
      let apiVersion ← members.optionalField "apiVersion" .string
      let kind ← members.optionalField "kind" .string
      let name ← members.field "name" .string
      let uid ← members.optionalField "uid" .string
      let name ← required "name" name
      return ⟨apiVersion, kind, name, uid⟩

end TypedReference

end ReplicaKeeper
