import ReplicaKeeper.Api.Request
import ReplicaKeeper.Config
import ReplicaKeeper.MergePatch
import ReplicaKeeper.Ownership

/-!
# One step of a reconcile

A reconcile brings one scaler into effect.  It asks for the workload that the scaler points to, then
for the Deployments that the workload manages until it gets one, patches that Deployment, and
reports on the status of the scaler.  Whatever fails on the way is reported on the status as well.

`step` is a pure function of the scaler, the response to the request before, and the state.  It
gives the next state and the next request.
-/

set_option autoImplicit false

namespace ReplicaKeeper.Reconcile

/-! ## States -/

/-- Where a reconcile waits. -/
inductive Phase where
  | afterGetWorkload
  | afterGetDeployment
  | afterPatchDeployment
  | afterUpdateStatus
  deriving DecidableEq, Repr

def Phase.text : Phase → String
  | .afterGetWorkload => "AfterGetWorkload"
  | .afterGetDeployment => "AfterGetDeployment"
  | .afterPatchDeployment => "AfterPatchDeployment"
  | .afterUpdateStatus => "AfterUpdateStatus"

/-- How a reconcile fails without having reported that on the status. -/
inductive StepError where
  | updateStatusFailed (error : ApiError)
  /-- The response is none to the request before. -/
  | unexpectedResponse (phase : Phase)
  deriving DecidableEq, Repr

def StepError.message : StepError → String
  | .updateStatusFailed error => "failed to update ManualScalerTrait status: " ++ error.message
  | .unexpectedResponse phase =>
      "reconcile_core got an unexpected response at step " ++ phase.text

/-- How far a reconcile is. -/
inductive Stage where
  | init
  | awaiting (phase : Phase)
  | done
  | failed (error : StepError)
  deriving DecidableEq, Repr

/-- What to do with the scaler once a reconcile has ended. -/
inductive Outcome where
  | done
  /-- Try again after a number of seconds. -/
  | requeueAfter (seconds : Nat)
  deriving DecidableEq, Repr

/-- The state of a reconcile. -/
structure State where
  stage : Stage := .init
  /-- The Deployments to ask for, in the order in which the workload reports them. -/
  candidates : List TypedReference := []
  /-- The place of the candidate that was asked for last. -/
  candidateIndex : Nat := 0
  /-- Why the last candidate could not be read. -/
  lastCandidateError : Option ApiError := none
  /-- The outcome, once the status is written. -/
  outcome : Outcome := .done
  deriving DecidableEq, Repr

def State.isDone (state : State) : Bool := state.stage = .done

def State.error? (state : State) : Option StepError :=
  match state.stage with
  | .failed error => some error
  | _ => none

/-! ## Reporting -/

/-- Writes a condition to the status of the scaler. -/
def report (scaler : Scaler) (condition : Condition) (outcome : Outcome) (state : State) :
    State × Option Request :=
  let status := (scaler.status.getD {}).set [condition]
  ({ state with stage := .awaiting .afterUpdateStatus, outcome },
    some (.updateStatus { scaler with status := some status }))

def reportSuccess (now : Time) (scaler : Scaler) (state : State) : State × Option Request :=
  report scaler (.success now) .done state

def reportFailure (now : Time) (config : Config) (scaler : Scaler) (reason : ConditionReason)
    (message : String) (state : State) : State × Option Request :=
  report scaler (.failure now reason message) (.requeueAfter config.retryDelay) state

/-- Ends a reconcile that got a response to another request. -/
def unexpected (phase : Phase) (state : State) : State × Option Request :=
  ({ state with stage := .failed (.unexpectedResponse phase) }, none)

/-! ## Asking for Deployments -/

/-- The namespace in which a scaler looks for objects. -/
def namespaceOf (scaler : Scaler) : String := scaler.metadata.ns.getD ""

/-- Asks for a candidate. -/
def askFor (scaler : Scaler) (candidate : TypedReference) (state : State) :
    State × Option Request :=
  ({ state with stage := .awaiting .afterGetDeployment },
    some (.getDeployment ⟨namespaceOf scaler, candidate.name⟩))

/-- The resources of a workload that can be scaled. -/
def candidatesOf (config : Config) (workload : Workload) : List TypedReference :=
  workload.managedResources.filter fun resource => resource.kind = some config.deploymentKind

/-- Whether a workload is the incarnation that the scaler points to. -/
def isIntended (scaler : Scaler) (workload : Workload) : Bool :=
  scaler.spec.workloadRef.uid.isSome && scaler.spec.workloadRef.uid = workload.metadata.uid

/-- What to do with the workload. -/
def takeWorkload (now : Time) (config : Config) (scaler : Scaler) (workload : Workload)
    (state : State) : State × Option Request :=
  if isIntended scaler workload then
    match candidatesOf config workload with
    | [] =>
        reportFailure now config scaler .cannotLocateDeployment config.messages.locateDeployment
          state
    | first :: others =>
        askFor scaler first { state with candidates := first :: others, candidateIndex := 0 }
  else reportFailure now config scaler .cannotLocateWorkload config.messages.locateWorkload state

/-- Passes over a candidate that could not be read. -/
def nextCandidate (now : Time) (config : Config) (scaler : Scaler) (error : ApiError)
    (state : State) : State × Option Request :=
  let index := state.candidateIndex + 1
  let state := { state with candidateIndex := index, lastCandidateError := some error }
  match state.candidates[index]? with
  | some candidate => askFor scaler candidate state
  | none =>
      reportFailure now config scaler .cannotLocateDeployment
        (config.messages.locateDeployment ++ ": " ++ error.message) state

/-! ## Patching a Deployment -/

/-- A patch that fails when the Deployment has another resource version than `version`. -/
def lockVersion (version : String) (patch : Json) : Json :=
  match patch with
  | .obj members =>
      match (Entries.get? members "metadata").getD .emptyObject with
      | .obj metadata =>
          let metadata := Entries.insert "resourceVersion" (.str version) metadata
          .obj (Entries.insert "metadata" (.obj metadata) members)
      | _ => patch
  | _ => patch

/-- The patch from a Deployment to the desired one. -/
def patchTo (config : Config) (deployment desired : Deployment) : Json :=
  let patch := MergePatch.diff deployment.encode desired.encode
  match config.optimisticLock, deployment.metadata.resourceVersion with
  | true, some version => lockVersion version patch
  | _, _ => patch

/-- What the Deployment should be: managed by the scaler, and with the number of replicas that it
asks for. -/
def desired (scaler : Scaler) (owner : OwnerReference) (deployment : Deployment) :
    Except OwnershipError Deployment :=
  (deployment.withOwner owner).map fun owned => owned.withReplicas scaler.spec.replicaCount

/-- Patches a Deployment. -/
def scale (now : Time) (config : Config) (scaler : Scaler) (deployment : Deployment)
    (state : State) : State × Option Request :=
  match scaler.ownerReference? with
  | none =>
      reportFailure now config scaler .cannotScaleDeployment
        (config.messages.updateDeployment ++ ": owner misses .metadata.name or .metadata.uid") state
  | some owner =>
      match desired scaler owner deployment with
      | .error error =>
          reportFailure now config scaler .cannotScaleDeployment
            (config.messages.updateDeployment ++ ": " ++ error.message) state
      | .ok desired =>
          let key : Key := ⟨namespaceOf scaler, deployment.metadata.name.getD ""⟩
          ({ state with stage := .awaiting .afterPatchDeployment },
            some (.patchDeployment key (patchTo config deployment desired)))

/-! ## The step -/

/-- One step of a reconcile at a moment: what to make of the response to the request before. -/
def step (now : Time) (config : Config) (scaler : Scaler) (response : Option Response)
    (state : State) : State × Option Request :=
  match state.stage with
  | .init =>
      ({ state with stage := .awaiting .afterGetWorkload },
        some (.getWorkload ⟨namespaceOf scaler, scaler.spec.workloadRef.name⟩))
  | .awaiting .afterGetWorkload =>
      match response with
      | some (.workload (.ok workload)) => takeWorkload now config scaler workload state
      | some (.workload (.error error)) =>
          reportFailure now config scaler .cannotLocateWorkload
            (config.messages.locateWorkload ++ ": " ++ error.message) state
      | _ => unexpected .afterGetWorkload state
  | .awaiting .afterGetDeployment =>
      match response with
      | some (.deployment (.ok deployment)) => scale now config scaler deployment state
      | some (.deployment (.error error)) => nextCandidate now config scaler error state
      | _ => unexpected .afterGetDeployment state
  | .awaiting .afterPatchDeployment =>
      match response with
      | some (.patched (.ok _)) => reportSuccess now scaler state
      | some (.patched (.error error)) =>
          reportFailure now config scaler .cannotScaleDeployment
            (config.messages.scaleDeployment ++ ": " ++ error.message) state
      | _ => unexpected .afterPatchDeployment state
  | .awaiting .afterUpdateStatus =>
      match response with
      | some (.statusUpdated (.ok _)) => ({ state with stage := .done }, none)
      | some (.statusUpdated (.error error)) =>
          if error.isNotFound then ({ state with stage := .done }, none)
          else ({ state with stage := .failed (.updateStatusFailed error) }, none)
      | _ => unexpected .afterUpdateStatus state
  | .done => (state, none)
  | .failed _ => (state, none)

/-! ## Counting candidates -/

/-- The greatest place of a candidate that can be counted. -/
def maxCandidateIndex : Nat := 18446744073709551615

/-- A candidate would be passed over whose place is the greatest one. -/
inductive CountOverflow where
  | candidateIndex
  deriving DecidableEq, Repr

def CountOverflow.message : CountOverflow → String
  | .candidateIndex => "attempt to add with overflow"

/-- Whether a response makes a step pass over a candidate. -/
def passesCandidate (response : Option Response) (state : State) : Bool :=
  match state.stage, response with
  | .awaiting .afterGetDeployment, some (.deployment (.error _)) => true
  | _, _ => false

/-- One step of a reconcile whose state may come from anywhere.  In a reconcile that starts at the
beginning there are fewer candidates than places, and no step fails. -/
def countedStep (now : Time) (config : Config) (scaler : Scaler) (response : Option Response)
    (state : State) : Except CountOverflow (State × Option Request) :=
  if passesCandidate response state && maxCandidateIndex ≤ state.candidateIndex then
    .error .candidateIndex
  else .ok (step now config scaler response state)

/-! ## The stage after a step -/

section Stages

variable (now : Time) (config : Config) (scaler : Scaler)

@[simp] theorem stage_report (condition : Condition) (outcome : Outcome) (state : State) :
    (report scaler condition outcome state).1.stage = .awaiting .afterUpdateStatus := rfl

@[simp] theorem stage_reportSuccess (state : State) :
    (reportSuccess now scaler state).1.stage = .awaiting .afterUpdateStatus := rfl

@[simp] theorem stage_reportFailure (reason : ConditionReason) (message : String) (state : State) :
    (reportFailure now config scaler reason message state).1.stage = .awaiting .afterUpdateStatus :=
  rfl

@[simp] theorem stage_unexpected (phase : Phase) (state : State) :
    (unexpected phase state).1.stage = .failed (.unexpectedResponse phase) := rfl

@[simp] theorem stage_askFor (candidate : TypedReference) (state : State) :
    (askFor scaler candidate state).1.stage = .awaiting .afterGetDeployment := rfl

end Stages

end ReplicaKeeper.Reconcile
