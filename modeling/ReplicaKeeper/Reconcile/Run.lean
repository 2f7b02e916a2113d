import ReplicaKeeper.Reconcile.Session

/-!
# Reconciling

A whole reconcile: the scaler is read and its session is run to the end.  A scaler that does not
exist needs nothing.  What the controller does afterwards is an `Action`.
-/

set_option autoImplicit false

namespace ReplicaKeeper

/-- Why a reconcile failed outright. -/
inductive ReconcileError where
  /-- The scaler has no name. -/
  | missingName
  /-- The scaler has no namespace. -/
  | missingNamespace
  | getScalerFailed (error : ApiError)
  | stepFailed (error : Reconcile.StepError)
  deriving DecidableEq, Repr

def ReconcileError.message : ReconcileError → String
  | .missingName => "MissingObjectKey: .metadata.name"
  | .missingNamespace => "MissingObjectKey: .metadata.namespace"
  | .getScalerFailed error => "Failed to get ManualScalerTrait: " ++ error.message
  | .stepFailed error => "ReconcileCoreError: " ++ error.message

/-! ## Actions -/

/-- What a controller does after a reconcile. -/
inductive Action where
  | awaitChange
  /-- Reconcile again after a number of seconds. -/
  | requeue (seconds : Nat)
  deriving DecidableEq, Repr

/-- A delay in words: seconds, and nothing at all in nanoseconds. -/
def Action.delayText (seconds : Nat) : String :=
  if seconds = 0 then "0ns" else toString seconds ++ "s"

/-- An action in words. -/
def Action.text : Action → String
  | .awaitChange => "Action \x7b requeue_after: None \x7d"
  | .requeue seconds => "Action \x7b requeue_after: Some(" ++ delayText seconds ++ ") \x7d"

namespace Reconcile

variable {σ : Type}

def Outcome.action : Outcome → Action
  | .done => .awaitChange
  | .requeueAfter seconds => .requeue seconds

/-- Reconciles the scaler under a key. -/
def reconcile (now : Time) (config : Config) (store : Store σ) (key : Key) (world : σ) :
    Except ReconcileError Outcome × σ :=
  match store.getScaler key world with
  | (.error error, world) =>
      if error.isNotFound then (.ok .done, world) else (.error (.getScalerFailed error), world)
  | (.ok scaler, world) =>
      let session : Session := { scaler }
      let (result, world) := session.run now config store world
      (result.mapError .stepFailed, world)

/-- Reconciles a scaler that a watch has shown: only its key counts, and without one nothing is
done. -/
def reconcileObject (now : Time) (config : Config) (store : Store σ) (scaler : Scaler) (world : σ) :
    Except ReconcileError Action × σ :=
  match scaler.metadata.name, scaler.metadata.ns with
  | none, _ => (.error .missingName, world)
  | _, none => (.error .missingNamespace, world)
  | some name, some ns =>
      let (result, world) := reconcile now config store ⟨ns, name⟩ world
      (result.map Outcome.action, world)

/-- What a controller does after a reconcile that failed. -/
def afterError (config : Config) : Action := .requeue config.errorBackoff

end Reconcile

end ReplicaKeeper
