import ReplicaKeeper.Object.Labels

/-!
# What all objects have in common

The metadata of an object: its identity, its version, who owns it and what it is labelled with.
Every field may be absent.

Two fields that Kubernetes has are left out, because nothing here names them: the record of who
manages which field (`managedFields`) and the deprecated `selfLink`.
-/

set_option autoImplicit false

namespace ReplicaKeeper

/-! ## Owners -/

/-- A reference to an object that owns another one.  The owner with `controller` set is the one that
manages the object. -/
structure OwnerReference where
  apiVersion : String
  blockOwnerDeletion : Option Bool
  controller : Option Bool
  kind : String
  name : String
  uid : String
  deriving DecidableEq, Repr, Inhabited

namespace OwnerReference

def encode (owner : OwnerReference) : Json :=
  .record [("apiVersion", some (.str owner.apiVersion)),
    ("blockOwnerDeletion", owner.blockOwnerDeletion.map .bool),
    ("controller", owner.controller.map .bool), ("kind", some (.str owner.kind)),
    ("name", some (.str owner.name)), ("uid", some (.str owner.uid))]

/-- Texts that are absent are empty. -/
def decode : Decoder OwnerReference := fun value => do
  let members ← Decoder.members "OwnerReference" value
  let apiVersion ← members.lastOptionalField "apiVersion" .string
  let blockOwnerDeletion ← members.lastOptionalField "blockOwnerDeletion" .bool
  let controller ← members.lastOptionalField "controller" .bool
  let kind ← members.lastOptionalField "kind" .string
  let name ← members.lastOptionalField "name" .string
  let uid ← members.lastOptionalField "uid" .string
  return { apiVersion := apiVersion.getD "", blockOwnerDeletion, controller, kind := kind.getD "",
           name := name.getD "", uid := uid.getD "" }

/-- Whether the owner manages the object. -/
def isController (owner : OwnerReference) : Bool := owner.controller = some true

end OwnerReference

/-! ## Moments as JSON -/

def Time.encode (time : Time) : Json := .str time.text

/-! ## Metadata -/

/-- The metadata of an object, without `managedFields` and `selfLink`.  `ns` is its namespace. -/
structure ObjectMeta where
  annotations : Option Labels := none
  creationTimestamp : Option Time := none
  deletionGracePeriodSeconds : Option Int64 := none
  deletionTimestamp : Option Time := none
  finalizers : Option (List String) := none
  generateName : Option String := none
  generation : Option Int64 := none
  labels : Option Labels := none
  name : Option String := none
  ns : Option String := none
  ownerReferences : Option (List OwnerReference) := none
  resourceVersion : Option String := none
  uid : Option String := none
  deriving DecidableEq, Inhabited

namespace ObjectMeta

/-- The owners of the object; an absent list has none. -/
def owners (metadata : ObjectMeta) : List OwnerReference := metadata.ownerReferences.getD []

def encode (metadata : ObjectMeta) : Json :=
  .record [("annotations", metadata.annotations.map Labels.encode),
    ("creationTimestamp", metadata.creationTimestamp.map Time.encode),
    ("deletionGracePeriodSeconds", metadata.deletionGracePeriodSeconds.map Json.ofInt64),
    ("deletionTimestamp", metadata.deletionTimestamp.map Time.encode),
    ("finalizers", metadata.finalizers.map fun names => .arr (names.map .str)),
    ("generateName", metadata.generateName.map .str),
    ("generation", metadata.generation.map Json.ofInt64),
    ("labels", metadata.labels.map Labels.encode), ("name", metadata.name.map .str),
    ("namespace", metadata.ns.map .str),
    ("ownerReferences",
      metadata.ownerReferences.map fun owners => .arr (owners.map OwnerReference.encode)),
    ("resourceVersion", metadata.resourceVersion.map .str), ("uid", metadata.uid.map .str)]

def decode : Decoder ObjectMeta := fun value => do
  let members ← Decoder.members "ObjectMeta" value
  let annotations ← members.lastOptionalField "annotations" Labels.decode
  let creationTimestamp ← members.lastOptionalField "creationTimestamp" .time
  let deletionGracePeriodSeconds ←
    members.lastOptionalField "deletionGracePeriodSeconds" .int64
  let deletionTimestamp ← members.lastOptionalField "deletionTimestamp" .time
  let finalizers ← members.lastOptionalField "finalizers" (.list .string)
  let generateName ← members.lastOptionalField "generateName" .string
  let generation ← members.lastOptionalField "generation" .int64
  let labels ← members.lastOptionalField "labels" Labels.decode
  let name ← members.lastOptionalField "name" .string
  let ns ← members.lastOptionalField "namespace" .string
  let ownerReferences ←
    members.lastOptionalField "ownerReferences" (.list OwnerReference.decode)
  let resourceVersion ← members.lastOptionalField "resourceVersion" .string
  let uid ← members.lastOptionalField "uid" .string
  return { annotations, creationTimestamp, deletionGracePeriodSeconds, deletionTimestamp,
           finalizers, generateName, generation, labels, name, ns, ownerReferences,
           resourceVersion, uid }

end ObjectMeta

end ReplicaKeeper
