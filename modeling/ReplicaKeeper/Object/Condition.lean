import ReplicaKeeper.Object.Meta

/-!
# Conditions

A condition records how the last attempt to act on an object ended, and since when that is so.  A
list of conditions is meant to hold one condition of each type.  Setting a condition that says the
same as the present one changes nothing, so that the present one keeps its transition time.
-/

set_option autoImplicit false

namespace ReplicaKeeper

/-! ## Types, statuses and reasons -/

/-- What a condition is about. -/
inductive ConditionType where
  /-- Whether the wish of an object has been carried out. -/
  | synced
  deriving DecidableEq, Repr

inductive ConditionStatus where
  | success
  | error
  deriving DecidableEq, Repr

inductive ConditionReason where
  | reconcileSuccess
  | cannotLocateWorkload
  | cannotLocateDeployment
  | cannotScaleDeployment
  deriving DecidableEq, Repr

def ConditionType.text : ConditionType → String
  | .synced => "Synced"

def ConditionStatus.text : ConditionStatus → String
  | .success => "Success"
  | .error => "Error"

def ConditionReason.text : ConditionReason → String
  | .reconcileSuccess => "ReconcileSuccess"
  | .cannotLocateWorkload => "CannotLocateWorkload"
  | .cannotLocateDeployment => "CannotLocateDeployment"
  | .cannotScaleDeployment => "CannotScaleDeployment"

/-! ## Conditions -/

structure Condition where
  type : ConditionType
  status : ConditionStatus
  lastTransitionTime : Time
  reason : ConditionReason
  message : String
  deriving DecidableEq, Repr

namespace Condition

/-- The condition after a success at a moment. -/
def success (now : Time) : Condition := ⟨.synced, .success, now, .reconcileSuccess, ""⟩

/-- The condition after a failure at a moment. -/
def failure (now : Time) (reason : ConditionReason) (message : String) : Condition :=
  ⟨.synced, .error, now, reason, message⟩

/-- Whether two conditions differ in their transition times at most. -/
def equivalent (left right : Condition) : Bool :=
  left.type = right.type && left.status = right.status && left.reason = right.reason &&
    left.message = right.message

/-- Puts a condition in the place of the first one of its type, unless that one says the same; a
condition of a new type goes to the end. -/
def set (condition : Condition) : List Condition → List Condition
  | [] => [condition]
  | present :: rest =>
      if present.type = condition.type then
        if present.equivalent condition then present :: rest else condition :: rest
      else present :: set condition rest

/-- Sets conditions one after another. -/
def setAll (news conditions : List Condition) : List Condition :=
  news.foldl (fun conditions new => set new conditions) conditions

/-- The first condition of a type. -/
def find? (type : ConditionType) (conditions : List Condition) : Option Condition :=
  conditions.find? fun condition => condition.type = type

/-! ## As JSON -/

def types : List (String × ConditionType) := [("Synced", .synced)]

def statuses : List (String × ConditionStatus) := [("Success", .success), ("Error", .error)]

def reasons : List (String × ConditionReason) :=
  [("ReconcileSuccess", .reconcileSuccess), ("CannotLocateWorkload", .cannotLocateWorkload),
    ("CannotLocateDeployment", .cannotLocateDeployment),
    ("CannotScaleDeployment", .cannotScaleDeployment)]

/-- An empty message is left out. -/
def encode (condition : Condition) : Json :=
  .record [("lastTransitionTime", some condition.lastTransitionTime.encode),
    ("message", if condition.message.isEmpty then none else some (.str condition.message)),
    ("reason", some (.str condition.reason.text)), ("status", some (.str condition.status.text)),
    ("type", some (.str condition.type.text))]

/-- Where a condition stands. -/
inductive Place where
  /-- By itself. -/
  | alone
  /-- In the status of an object. -/
  | inStatus
  deriving DecidableEq, Repr

/-- How many fields a condition has. -/
def fieldCount : Nat := 5

/-- The error for a sequence with too many elements. -/
def Place.surplus (count : Nat) : Place → DecodeError
  | alone => .surplusElements count
  | inStatus => .surplusElementsAfter count fieldCount

/-- What may stand beside the words of a condition that are written as objects. -/
def Place.beside : Place → Decoder.Beside
  | alone => .null
  | inStatus => .nullOrEmpty

/-- The fields in the order of their declaration, as elements of a sequence. -/
def elements (place : Place) : ElementReader Condition := do
  let expected := "struct Condition with 5 elements"
  let type ← .nextRequired 0 expected (.choice types place.beside)
  let status ← .nextRequired 1 expected (.choice statuses place.beside)
  let lastTransitionTime ← .nextRequired 2 expected .time
  let reason ← .nextRequired 3 expected (.choice reasons place.beside)
  let message ← .next .string
  return ⟨type, status, lastTransitionTime, reason, message.getD ""⟩

def decodeAt (place : Place) : Decoder Condition
  | .arr items => (elements place).run (place.surplus ·) items
  | value => do
      let members ← Decoder.members "struct Condition" value
      let lastTransitionTime ← members.field "lastTransitionTime" .time
      let message ← members.field "message" .string
      let reason ← members.field "reason" (.choice reasons place.beside)
      let status ← members.field "status" (.choice statuses place.beside)
      let type ← members.field "type" (.choice types place.beside)
      let type ← required "type" type
      let status ← required "status" status
      let lastTransitionTime ← required "lastTransitionTime" lastTransitionTime
      let reason ← required "reason" reason
      return ⟨type, status, lastTransitionTime, reason, message.getD ""⟩

def decode : Decoder Condition := decodeAt .alone

end Condition

/-! ## Lists of conditions -/

/-- The conditions of an object. -/
structure ConditionedStatus where
  conditions : List Condition := []
  deriving DecidableEq, Repr, Inhabited

namespace ConditionedStatus

/-- The first condition of a type. -/
def get? (status : ConditionedStatus) (type : ConditionType) : Option Condition :=
  Condition.find? type status.conditions

/-- Sets conditions one after another. -/
def set (news : List Condition) (status : ConditionedStatus) : ConditionedStatus :=
  ⟨Condition.setAll news status.conditions⟩

/-- The member of the conditions in a status; an empty list is left out. -/
def conditionsField (conditions : List Condition) : String × Option Json :=
  ("conditions", if conditions.isEmpty then none else some (.arr (conditions.map Condition.encode)))

def encode (status : ConditionedStatus) : Json := .record [conditionsField status.conditions]

def decode : Decoder ConditionedStatus
  | .arr items =>
      let conditions := do
        let conditions ← ElementReader.next (.list Condition.decode)
        return ConditionedStatus.mk (conditions.getD [])
      conditions.run .surplusElements items
  | value => do
      let members ← Decoder.members "struct ConditionedStatus" value
      let conditions ← members.field "conditions" (.list Condition.decode)
      return ⟨conditions.getD []⟩

end ConditionedStatus

end ReplicaKeeper
