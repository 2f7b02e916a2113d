import ReplicaKeeper.Object.Meta

/-!
# Deployments

A Deployment runs a number of replicas of a pod.  Everything about it may be absent.  Written out, a
specification always has its selector and its pod template, a pod its containers and a container its
name.

The fields are a selection of those that Kubernetes has: the ones that are asked about or changed
here, with some of each kind of value beside them, so that a patch has something of every kind to
leave as it is.  The other fields are neither read nor written; nothing here names them.
-/

set_option autoImplicit false

namespace ReplicaKeeper

/-! ## Pods -/

/-- A container, of which only name and image are kept. -/
structure Container where
  image : Option String
  name : String
  deriving DecidableEq, Repr, Inhabited

/-- A pod, of which only the containers are kept: no volumes, no rules for restarts or placement. -/
structure PodSpec where
  containers : List Container
  deriving DecidableEq, Repr, Inhabited

/-- What the pods of a Deployment are made from. -/
structure PodTemplate where
  metadata : Option ObjectMeta := none
  spec : Option PodSpec := none
  deriving DecidableEq, Inhabited

/-! ## Specification and status -/

/-- A number of pods, or a percentage written as a text. -/
inductive PodAmount where
  | count (n : Int32)
  | text (s : String)
  deriving DecidableEq, Repr

structure RollingUpdate where
  maxSurge : Option PodAmount
  maxUnavailable : Option PodAmount
  deriving DecidableEq, Repr, Inhabited

/-- How pods are replaced. -/
structure DeploymentStrategy where
  rollingUpdate : Option RollingUpdate
  type : Option String
  deriving DecidableEq, Repr, Inhabited

/-- Which pods belong to a Deployment, by their labels; `matchExpressions` is left out. -/
structure LabelSelector where
  matchLabels : Option Labels := none
  deriving DecidableEq, Inhabited

/-- A specification, with all fields that Kubernetes gives it. -/
structure DeploymentSpec where
  minReadySeconds : Option Int32 := none
  paused : Option Bool := none
  progressDeadlineSeconds : Option Int32 := none
  replicas : Option Int32 := none
  revisionHistoryLimit : Option Int32 := none
  selector : LabelSelector := {}
  strategy : Option DeploymentStrategy := none
  template : PodTemplate := {}
  deriving DecidableEq, Inhabited

/-- Three of the eight fields of a status: the conditions and the other counts are left out. -/
structure DeploymentStatus where
  observedGeneration : Option Int64
  readyReplicas : Option Int32
  replicas : Option Int32
  deriving DecidableEq, Repr, Inhabited

/-- A Deployment, as far as it is looked at here. -/
structure Deployment where
  metadata : ObjectMeta := {}
  spec : Option DeploymentSpec := none
  status : Option DeploymentStatus := none
  deriving DecidableEq, Inhabited

/-! ## As JSON -/

namespace Container

def encode (container : Container) : Json :=
  .record [("image", container.image.map .str), ("name", some (.str container.name))]

def decode : Decoder Container := fun value => do
  let members ← Decoder.members "Container" value
  let image ← members.lastOptionalField "image" .string
  let name ← members.lastOptionalField "name" .string
  return ⟨image, name.getD ""⟩

end Container

namespace PodSpec

def encode (spec : PodSpec) : Json :=
  .record [("containers", some (.arr (spec.containers.map Container.encode)))]

def decode : Decoder PodSpec := fun value => do
  let members ← Decoder.members "PodSpec" value
  let containers ← members.lastOptionalField "containers" (.list Container.decode)
  return ⟨containers.getD []⟩

end PodSpec

namespace PodTemplate

def encode (template : PodTemplate) : Json :=
  .record [("metadata", template.metadata.map ObjectMeta.encode),
    ("spec", template.spec.map PodSpec.encode)]

def decode : Decoder PodTemplate := fun value => do
  let members ← Decoder.members "PodTemplateSpec" value
  let metadata ← members.lastOptionalField "metadata" ObjectMeta.decode
  let spec ← members.lastOptionalField "spec" PodSpec.decode
  return ⟨metadata, spec⟩

end PodTemplate

namespace PodAmount

def encode : PodAmount → Json
  | count n => .ofInt32 n
  | text s => .str s

def decode : Decoder PodAmount
  | .str s => .ok (.text s)
  | .int n =>
      (Decoder.integer Int32.minValue.toInt Int32.maxValue.toInt "a 32-bit integer" (.int n)).map
        fun n => .count (.ofInt n)
  | value => .error (.wrongType value.found "IntOrString")

end PodAmount

namespace RollingUpdate

def encode (update : RollingUpdate) : Json :=
  .record [("maxSurge", update.maxSurge.map PodAmount.encode),
    ("maxUnavailable", update.maxUnavailable.map PodAmount.encode)]

def decode : Decoder RollingUpdate := fun value => do
  let members ← Decoder.members "RollingUpdateDeployment" value
  let maxSurge ← members.lastOptionalField "maxSurge" PodAmount.decode
  let maxUnavailable ← members.lastOptionalField "maxUnavailable" PodAmount.decode
  return ⟨maxSurge, maxUnavailable⟩

end RollingUpdate

namespace DeploymentStrategy

def encode (strategy : DeploymentStrategy) : Json :=
  .record [("rollingUpdate", strategy.rollingUpdate.map RollingUpdate.encode),
    ("type", strategy.type.map .str)]

def decode : Decoder DeploymentStrategy := fun value => do
  let members ← Decoder.members "DeploymentStrategy" value
  let rollingUpdate ← members.lastOptionalField "rollingUpdate" RollingUpdate.decode
  let type ← members.lastOptionalField "type" .string
  return ⟨rollingUpdate, type⟩

end DeploymentStrategy

namespace LabelSelector

def encode (selector : LabelSelector) : Json :=
  .record [("matchLabels", selector.matchLabels.map Labels.encode)]

def decode : Decoder LabelSelector := fun value => do
  let members ← Decoder.members "LabelSelector" value
  let matchLabels ← members.lastOptionalField "matchLabels" Labels.decode
  return ⟨matchLabels⟩

end LabelSelector

namespace DeploymentSpec

def encode (spec : DeploymentSpec) : Json :=
  .record [("minReadySeconds", spec.minReadySeconds.map Json.ofInt32),
    ("paused", spec.paused.map .bool),
    ("progressDeadlineSeconds", spec.progressDeadlineSeconds.map Json.ofInt32),
    ("replicas", spec.replicas.map Json.ofInt32),
    ("revisionHistoryLimit", spec.revisionHistoryLimit.map Json.ofInt32),
    ("selector", some spec.selector.encode),
    ("strategy", spec.strategy.map DeploymentStrategy.encode),
    ("template", some spec.template.encode)]

def decode : Decoder DeploymentSpec := fun value => do
  let members ← Decoder.members "DeploymentSpec" value
  let minReadySeconds ← members.lastOptionalField "minReadySeconds" .int32
  let paused ← members.lastOptionalField "paused" .bool
  let progressDeadlineSeconds ← members.lastOptionalField "progressDeadlineSeconds" .int32
  let replicas ← members.lastOptionalField "replicas" .int32
  let revisionHistoryLimit ← members.lastOptionalField "revisionHistoryLimit" .int32
  let selector ← members.lastOptionalField "selector" LabelSelector.decode
  let strategy ← members.lastOptionalField "strategy" DeploymentStrategy.decode
  let template ← members.lastOptionalField "template" PodTemplate.decode
  return { minReadySeconds, paused, progressDeadlineSeconds, replicas, revisionHistoryLimit,
           selector := selector.getD {}, strategy, template := template.getD {} }

end DeploymentSpec

namespace DeploymentStatus

def encode (status : DeploymentStatus) : Json :=
  .record [("observedGeneration", status.observedGeneration.map Json.ofInt64),
    ("readyReplicas", status.readyReplicas.map Json.ofInt32),
    ("replicas", status.replicas.map Json.ofInt32)]

def decode : Decoder DeploymentStatus := fun value => do
  let members ← Decoder.members "DeploymentStatus" value
  let observedGeneration ← members.lastOptionalField "observedGeneration" .int64
  let readyReplicas ← members.lastOptionalField "readyReplicas" .int32
  let replicas ← members.lastOptionalField "replicas" .int32
  return ⟨observedGeneration, readyReplicas, replicas⟩

end DeploymentStatus

namespace Deployment

def apiVersion : String := "apps/v1"

def kind : String := "Deployment"

/-- A text that can only be the given one. -/
def fixedText (text : String) : Decoder Unit := fun value => do
  let found ← Decoder.string value
  if found = text then .ok () else .error (.wrongValue (.text found) text)

def encode (deployment : Deployment) : Json :=
  .record [("apiVersion", some (.str apiVersion)), ("kind", some (.str kind)),
    ("metadata", some deployment.metadata.encode),
    ("spec", deployment.spec.map DeploymentSpec.encode),
    ("status", deployment.status.map DeploymentStatus.encode)]

/-- Version and kind may be absent but not be others. -/
def decode : Decoder Deployment := fun value => do
  let members ← Decoder.members "Deployment" value
  let _ ← members.lastField "apiVersion" (fixedText apiVersion)
  let _ ← members.lastField "kind" (fixedText kind)
  let metadata ← members.lastOptionalField "metadata" ObjectMeta.decode
  let spec ← members.lastOptionalField "spec" DeploymentSpec.decode
  let status ← members.lastOptionalField "status" DeploymentStatus.decode
  return ⟨metadata.getD {}, spec, status⟩

/-- The Deployment with a number of replicas; a missing specification becomes an empty one first. -/
def withReplicas (deployment : Deployment) (replicas : Int32) : Deployment :=
  { deployment with spec := some { deployment.spec.getD {} with replicas := some replicas } }

end Deployment

end ReplicaKeeper
