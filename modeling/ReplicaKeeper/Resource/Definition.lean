import ReplicaKeeper.Object.Workload
import ReplicaKeeper.Resource.Schema
import ReplicaKeeper.Yaml

/-!
# Resource definitions

A definition makes a kind of resource known to a server: its names, its schema, and what is shown of
its objects in a table.  There is one for scalers and one for workloads.
-/

set_option autoImplicit false

namespace ReplicaKeeper

/-- The group of the resources of this controller. -/
def resourceGroup : String := "core.oam.dev"

/-- The version of a resource within its group. -/
def resourceVersionName : String := "v1alpha2"

/-- A column of the table of objects. -/
structure PrinterColumn where
  name : String
  type : String
  /-- Where the shown value stands in an object. -/
  path : String
  deriving DecidableEq, Repr

/-- The definition of a kind of resource that lives in namespaces and has a status of its own. -/
structure ResourceDefinition where
  kind : String
  singular : String
  plural : String
  shortNames : List String := []
  columns : List PrinterColumn := []
  /-- The schemas of the specification and of the status. -/
  spec : Schema
  status : Schema

/-! ## As JSON -/

def PrinterColumn.encode (column : PrinterColumn) : Json :=
  .record [("jsonPath", some (.str column.path)), ("name", some (.str column.name)),
    ("type", some (.str column.type))]

namespace ResourceDefinition

/-- The schema of whole objects. -/
def objectSchema (definition : ResourceDefinition) : Schema :=
  .object
    { title := some definition.kind
      description :=
        some ("Auto-generated derived type for " ++ definition.kind ++
          "Spec via \x60CustomResource\x60") }
    [("spec", true, definition.spec), ("status", false, definition.status)]

def encodeNames (definition : ResourceDefinition) : Json :=
  .record [("categories", some (.arr [])), ("kind", some (.str definition.kind)),
    ("plural", some (.str definition.plural)),
    ("shortNames", some (.arr (definition.shortNames.map .str))),
    ("singular", some (.str definition.singular))]

/-- The one version of a resource, which is served and stored. -/
def encodeVersion (definition : ResourceDefinition) : Json :=
  .record [("additionalPrinterColumns", some (.arr (definition.columns.map PrinterColumn.encode))),
    ("name", some (.str resourceVersionName)),
    ("schema", some (.obj [("openAPIV3Schema", definition.objectSchema.encode)])),
    ("served", some (.bool true)), ("storage", some (.bool true)),
    ("subresources", some (.obj [("status", .emptyObject)]))]

def encode (definition : ResourceDefinition) : Json :=
  .record [("apiVersion", some (.str "apiextensions.k8s.io/v1")),
    ("kind", some (.str "CustomResourceDefinition")),
    ("metadata", some (.obj [("name", .str (definition.plural ++ "." ++ resourceGroup))])),
    ("spec", some (.record [("group", some (.str resourceGroup)),
      ("names", some definition.encodeNames), ("scope", some (.str "Namespaced")),
      ("versions", some (.arr [definition.encodeVersion]))]))]

end ResourceDefinition

/-! ## The parts of objects -/

/-- References to objects in the same namespace. -/
def TypedReference.schema : Schema :=
  .object
    { description :=
        some ("TypedReference points at an object in the same namespace. A set uid pins the " ++
          "reference to one incarnation of the object.") }
    [("apiVersion", false, .nullableString), ("kind", false, .nullableString),
      ("name", true, .string), ("uid", false, .nullableString)]

/-- Moments. -/
def Time.schema : Schema :=
  .text
    { description :=
        some ("Time is a wrapper around time.Time which supports correct marshaling to YAML and " ++
          "JSON.  Wrappers are provided for many of the factory methods that the time package " ++
          "offers.") }
    (some "date-time") []

/-- The reasons of conditions. -/
def ConditionReason.all : List ConditionReason :=
  [.reconcileSuccess, .cannotLocateWorkload, .cannotLocateDeployment, .cannotScaleDeployment]

/-- A message may be absent. -/
def Condition.schema : Schema :=
  .object
    { description := some "Condition records the outcome of the most recent reconcile attempt." }
    [("lastTransitionTime", true, Time.schema), ("message", false, .string),
      ("reason", true, .choice (ConditionReason.all.map ConditionReason.text) none),
      ("status", true,
        .choice ([ConditionStatus.success, .error].map ConditionStatus.text) none),
      ("type", true,
        .choice [ConditionType.synced.text]
          (some "The channel this controller reports reconcile outcomes on."))]

/-- Statuses with conditions, and perhaps other fields after them. -/
def statusSchema (others : List (String × Bool × Schema)) : Schema :=
  .object
    { description := some "ConditionedStatus holds at most one condition per type."
      nullable := true }
    (("conditions", false, .array {} Condition.schema) :: others)

/-! ## The kinds -/

namespace ResourceDefinition

def scaler : ResourceDefinition where
  kind := Scaler.kind
  singular := "manualscalertrait"
  plural := "manualscalertraits"
  shortNames := ["manualscaler"]
  columns := [⟨"Replicas", "integer", ".spec.replicaCount"⟩]
  spec :=
    .object
      { description :=
          some ("ManualScalerTrait declares the replica count that the Deployment backing the " ++
            "referenced workload should run with.") }
      [("replicaCount", true, .count {}), ("workloadRef", true, TypedReference.schema)]
  status := statusSchema []

def workload : ResourceDefinition where
  kind := Workload.kind
  singular := "containerizedworkload"
  plural := "containerizedworkloads"
  spec :=
    .object
      { description :=
          some ("ContainerizedWorkload is only read by this controller; the containers are kept " ++
            "opaque and only the resources it reports in its status matter.") }
      [("containers", false, .array { default := some (.arr []) } .any),
        ("osType", false, .nullableString)]
  status :=
    statusSchema
      [("resources", false,
        .array
          { description := some "Resources managed by this workload, in creation order."
            default := some (.arr []) }
          TypedReference.schema)]

/-- The definition of a kind. -/
def ofKind? (kind : String) : Option ResourceDefinition :=
  [scaler, workload].find? (·.kind = kind)

/-- All definitions as a stream of documents, with an empty line before the mark between two. -/
def stream : String :=
  String.intercalate "---\n" ([scaler, workload].map fun definition =>
    Yaml.write definition.encode ++ "\n")

end ResourceDefinition

end ReplicaKeeper
