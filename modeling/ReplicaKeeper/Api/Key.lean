import ReplicaKeeper.Entries
import ReplicaKeeper.Object.Meta

/-!
# Keys

An object of a known kind is identified by its namespace and its name.
-/

set_option autoImplicit false

namespace ReplicaKeeper

/-- The namespace and the name of an object. -/
structure Key where
  ns : String
  name : String
  deriving DecidableEq, Repr, Inhabited

namespace Key

/-- Keys are ordered by namespace first. -/
instance : LT Key where
  lt left right := left.ns < right.ns ∨ left.ns = right.ns ∧ left.name < right.name

instance : DecidableLT Key := fun left right =>
  inferInstanceAs (Decidable (left.ns < right.ns ∨ left.ns = right.ns ∧ left.name < right.name))

/-- The text of a key, as in `default/frontend`. -/
def text (key : Key) : String := key.ns ++ "/" ++ key.name

end Key

/-- The key of an object; an absent part is empty. -/
def ObjectMeta.key (metadata : ObjectMeta) : Key := ⟨metadata.ns.getD "", metadata.name.getD ""⟩

end ReplicaKeeper
