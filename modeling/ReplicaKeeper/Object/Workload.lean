import ReplicaKeeper.Object.Scaler

/-!
# Workloads

A workload, of kind `ContainerizedWorkload`, is only read by this controller.  Its containers are
kept as they are; what matters are the resources that its status reports.
-/

set_option autoImplicit false

namespace ReplicaKeeper

structure WorkloadSpec where
  osType : Option String
  /-- The containers, which may be any values. -/
  containers : List Json

structure WorkloadStatus where
  conditions : List Condition
  /-- The objects that the workload manages, in the order of their creation. -/
  resources : List TypedReference
  deriving DecidableEq, Inhabited

/-- A workload. -/
structure Workload where
  metadata : ObjectMeta
  spec : WorkloadSpec
  status : Option WorkloadStatus

/-! ## As JSON -/

namespace WorkloadSpec

def encode (spec : WorkloadSpec) : Json :=
  .record [("containers", some (.arr spec.containers)), ("osType", spec.osType.map .str)]

/-- The fields in the order of their declaration, as elements of a sequence. -/
def elements : ElementReader WorkloadSpec := do
  let osType ← .nextOptional .string
  let containers ← .next (.list .value)
  return ⟨osType, containers.getD []⟩

def decode : Decoder WorkloadSpec
  | .arr items => elements.run .surplusElements items
  | value => do
      let members ← Decoder.members "struct ContainerizedWorkloadSpec" value
      let containers ← members.field "containers" (.list .value)
      let osType ← members.optionalField "osType" .string
      return ⟨osType, containers.getD []⟩

end WorkloadSpec

namespace WorkloadStatus

def encode (status : WorkloadStatus) : Json :=
  .record [ConditionedStatus.conditionsField status.conditions,
    ("resources", some (.arr (status.resources.map TypedReference.encode)))]

/-- The resources are decoded before the conditions.  All else must be readable throughout. -/
def decode : Decoder WorkloadStatus := fun value => do
  let members ← Decoder.members "struct ContainerizedWorkloadStatus" value
  let resources ← members.field "resources" (.list TypedReference.decode)
  if members.all fun member => member.1 = "resources" || member.2.isReadable then
    let conditions ← members.field "conditions" (.list (Condition.decodeAt .inStatus))
    return ⟨conditions.getD [], resources.getD []⟩
  else throw .unreadable

end WorkloadStatus

namespace Workload

def kind : String := "ContainerizedWorkload"

def encode (workload : Workload) : Json :=
  .record [("apiVersion", some (.str apiVersion)), ("kind", some (.str kind)),
    ("metadata", some workload.metadata.encode), ("spec", some workload.spec.encode),
    ("status", workload.status.map WorkloadStatus.encode)]

/-- The fields in the order of their declaration, as elements of a sequence. -/
def elements : ElementReader Workload := do
  let expected := "struct ContainerizedWorkload with 3 elements"
  let metadata ← .nextRequired 0 expected ObjectMeta.decode
  let spec ← .nextRequired 1 expected WorkloadSpec.decode
  let status ← .nextRequired 2 expected (Decoder.optional WorkloadStatus.decode)
  return ⟨metadata, spec, status⟩

/-- Version and kind of a workload are not looked at. -/
def decode : Decoder Workload
  | .arr items => elements.run .surplusElements items
  | value => do
      let members ← Decoder.members "struct ContainerizedWorkload" value
      let metadata ← members.field "metadata" ObjectMeta.decode
      let spec ← members.field "spec" WorkloadSpec.decode
      let status ← members.optionalField "status" WorkloadStatus.decode
      let metadata ← required "metadata" metadata
      let spec ← required "spec" spec
      return ⟨metadata, spec, status⟩

/-- The resources that a workload reports; none without a status. -/
def managedResources (workload : Workload) : List TypedReference :=
  match workload.status with
  | some status => status.resources
  | none => []

end Workload

end ReplicaKeeper
