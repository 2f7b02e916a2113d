import ReplicaKeeper.Object.Condition
import ReplicaKeeper.Object.Reference

/-!
# Scalers

A scaler, of kind `ManualScalerTrait`, declares how many replicas the Deployment behind a workload
should run with.  Its status holds the conditions that its controller reports.
-/

set_option autoImplicit false

namespace ReplicaKeeper

/-- The version of the resources of this controller. -/
def apiVersion : String := "core.oam.dev/v1alpha2"

/-- What a scaler asks for. -/
structure ScalerSpec where
  replicaCount : Int32
  workloadRef : TypedReference
  deriving DecidableEq, Repr, Inhabited

/-- A scaler. -/
structure Scaler where
  metadata : ObjectMeta
  spec : ScalerSpec
  status : Option ConditionedStatus
  deriving DecidableEq, Inhabited

/-! ## As JSON -/

namespace ScalerSpec

def encode (spec : ScalerSpec) : Json :=
  .record [("replicaCount", some (.ofInt32 spec.replicaCount)),
    ("workloadRef", some spec.workloadRef.encode)]

/-- The fields in the order of their declaration, as elements of a sequence. -/
def elements : ElementReader ScalerSpec := do
  let expected := "struct ManualScalerTraitSpec with 2 elements"
  let replicaCount ← .nextRequired 0 expected .int32
  let workloadRef ← .nextRequired 1 expected TypedReference.decode
  return ⟨replicaCount, workloadRef⟩

def decode : Decoder ScalerSpec
  | .arr items => elements.run .surplusElements items
  | value => do
      let members ← Decoder.members "struct ManualScalerTraitSpec" value
      let replicaCount ← members.field "replicaCount" .int32
      let workloadRef ← members.field "workloadRef" TypedReference.decode
      let replicaCount ← required "replicaCount" replicaCount
      let workloadRef ← required "workloadRef" workloadRef
      return ⟨replicaCount, workloadRef⟩

end ScalerSpec

namespace Scaler

def kind : String := "ManualScalerTrait"

/-- A status is always an object, and readable throughout. -/
def decodeStatus : Decoder ConditionedStatus := .readable fun value => do
  let members ← Decoder.members "struct ManualScalerTraitStatus" value
  let conditions ← members.field "conditions" (.list (Condition.decodeAt .inStatus))
  return ⟨conditions.getD []⟩

def encode (scaler : Scaler) : Json :=
  .record [("apiVersion", some (.str apiVersion)), ("kind", some (.str kind)),
    ("metadata", some scaler.metadata.encode), ("spec", some scaler.spec.encode),
    ("status", scaler.status.map ConditionedStatus.encode)]

/-- The fields in the order of their declaration, as elements of a sequence. -/
def elements : ElementReader Scaler := do
  let expected := "struct ManualScalerTrait with 3 elements"
  let metadata ← .nextRequired 0 expected ObjectMeta.decode
  let spec ← .nextRequired 1 expected ScalerSpec.decode
  let status ← .nextRequired 2 expected (Decoder.optional decodeStatus)
  return ⟨metadata, spec, status⟩

/-- Version and kind of a scaler are not looked at. -/
def decode : Decoder Scaler
  | .arr items => elements.run .surplusElements items
  | value => do
      let members ← Decoder.members "struct ManualScalerTrait" value
      let metadata ← members.field "metadata" ObjectMeta.decode
      let spec ← members.field "spec" ScalerSpec.decode
      let status ← members.optionalField "status" decodeStatus
      let metadata ← required "metadata" metadata
      let spec ← required "spec" spec
      return ⟨metadata, spec, status⟩

/-! ## Questions about a scaler -/

/-- The first condition of type `synced`. -/
def synced? (scaler : Scaler) : Option Condition :=
  scaler.status.bind fun status => status.get? .synced

/-- The reference that marks an object as managed by the scaler.  A scaler without name or uid has
none. -/
def ownerReference? (scaler : Scaler) : Option OwnerReference := do
  let name ← scaler.metadata.name
  let uid ← scaler.metadata.uid
  return { apiVersion, blockOwnerDeletion := none, controller := some true, kind, name, uid }

end Scaler

end ReplicaKeeper
