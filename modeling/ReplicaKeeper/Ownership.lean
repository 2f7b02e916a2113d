import ReplicaKeeper.Object.Deployment
import ReplicaKeeper.Object.Workload

/-!
# Ownership

Marking an object as owned.  Two references are to the same object when group, kind and name agree;
the version of the group and the uid do not matter.  An owner that is recreated therefore takes the
place of its stale reference, and marking an object twice changes nothing the second time.  An
object has one controller: a second one is refused.
-/

set_option autoImplicit false

namespace ReplicaKeeper

/-- Why an object cannot be marked as owned. -/
inductive OwnershipError where
  /-- Another object manages it. -/
  | alreadyOwned (kind name : String)
  /-- The owner has no uid. -/
  | missingUid
  /-- The owner has no name. -/
  | missingName
  deriving DecidableEq, Repr

def OwnershipError.message : OwnershipError → String
  | .alreadyOwned kind name =>
      "object is already owned by another controller " ++ kind ++ "/" ++ name
  | .missingUid => "owner misses .metadata.uid"
  | .missingName => "owner misses .metadata.name"

namespace OwnerReference

/-- The group of an API version: what stands before the first slash.  A version without a slash
belongs to the core group, whose name is empty. -/
def groupOf (apiVersion : String) : String :=
  if apiVersion.toList.contains '/' then String.ofList (apiVersion.toList.takeWhile (· ≠ '/'))
  else ""

/-- Whether two references are to the same object. -/
def sameObject (left right : OwnerReference) : Bool :=
  groupOf left.apiVersion = groupOf right.apiVersion && left.kind = right.kind &&
    left.name = right.name

/-- Puts an owner in the place of the first reference to the same object, or at the end. -/
def place (owner : OwnerReference) : List OwnerReference → List OwnerReference
  | [] => [owner]
  | present :: rest =>
      if present.sameObject owner then owner :: rest else present :: place owner rest

/-- The controller among some owners that is another object than the given one. -/
def otherController? (owner : OwnerReference) (owners : List OwnerReference) :
    Option OwnerReference :=
  owners.find? fun present => present.isController && !present.sameObject owner

/-- The owners with one more, or the reason why it cannot be one of them. -/
def addTo (owner : OwnerReference) (owners : List OwnerReference) :
    Except OwnershipError (List OwnerReference) :=
  if owner.uid.isEmpty then .error .missingUid
  else if owner.name.isEmpty then .error .missingName
  else
    match if owner.isController then owner.otherController? owners else none with
    | some present => .error (.alreadyOwned present.kind present.name)
    | none => .ok (owner.place owners)

end OwnerReference

/-! ## Marking objects -/

/-- The metadata with one more owner. -/
def ObjectMeta.withOwner (metadata : ObjectMeta) (owner : OwnerReference) :
    Except OwnershipError ObjectMeta :=
  (owner.addTo metadata.owners).map fun owners => { metadata with ownerReferences := some owners }

def Deployment.withOwner (deployment : Deployment) (owner : OwnerReference) :
    Except OwnershipError Deployment :=
  (deployment.metadata.withOwner owner).map fun metadata => { deployment with metadata }

def Scaler.withOwner (scaler : Scaler) (owner : OwnerReference) : Except OwnershipError Scaler :=
  (scaler.metadata.withOwner owner).map fun metadata => { scaler with metadata }

def Workload.withOwner (workload : Workload) (owner : OwnerReference) :
    Except OwnershipError Workload :=
  (workload.metadata.withOwner owner).map fun metadata => { workload with metadata }

end ReplicaKeeper
