import ReplicaKeeper.Json.Basic

/-!
# Merge patches

A merge patch is a JSON value that says how to change another.  The members of a patch that is an
object are applied one by one: null removes the member, an object changes it member by member, and
every other value takes its place.  A patch that is no object replaces the whole value.

`diff base desired` is the patch that turns `base` into `desired` and mentions only what differs;
`apply patch target` carries a patch out.  Arrays are replaced as a whole.
-/

set_option autoImplicit false

namespace ReplicaKeeper.MergePatch

open Entries

/-! ## Applying a patch -/

mutual

/-- What a value becomes under a patch. -/
def apply : (patch : Json) → (target : Json) → Json
  | .obj changes, target => .obj (applyMembers changes target.membersOrEmpty)
  | patch, _ => patch

/-- What members become under the members of a patch. -/
def applyMembers : (changes : List (String × Json)) → (members : Members) → Members
  | [], members => members
  | (name, change) :: changes, members =>
      if change.isNull then applyMembers changes (erase name members)
      else applyMembers changes
        (insert name (apply change ((get? members name).getD .null)) members)

end

/-! ## Computing a patch -/

/-- The patch that removes from `base` the members that `desired` lacks. -/
def removals (base desired : Members) : Members :=
  (base.filter fun member => !contains desired member.1).map fun member => (member.1, .null)

mutual

/-- The change of one member to the desired value: none when the values are equal, and none when
both are objects without a difference. -/
def change? : (desired : Json) → (base : Option Json) → Option Json
  | .obj desired, some (.obj base) =>
      if Json.obj base == Json.obj desired then none
      else
        match changes desired base (removals base desired) with
        | [] => none
        | patch => some (.obj patch)
  | desired, some base => if base == desired then none else some desired
  | desired, none => some desired

/-- The changes of all members, together with the given removals. -/
def changes : (desired : List (String × Json)) → (base removals : Members) → Members
  | [], _, removals => removals
  | (name, value) :: desired, base, removals =>
      match change? value (get? base name) with
      | none => changes desired base removals
      | some change => insert name change (changes desired base removals)

end

/-- The members of the patch between two objects. -/
def diffMembers (base desired : Members) : Members := changes desired base (removals base desired)

/-- The patch that turns `base` into `desired`. -/
def diff (base desired : Json) : Json :=
  match base, desired with
  | .obj base, .obj desired => .obj (diffMembers base desired)
  | _, desired => desired

end ReplicaKeeper.MergePatch
