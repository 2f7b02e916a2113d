import ReplicaKeeper.Proofs.Condition
import ReplicaKeeper.Reconcile.Run

/-!
# What a reconcile finds out

A reconcile ends its search with one of a few findings: a stage that failed and why, or success.
The finding alone fixes what is reported on the status, and what the controller does afterwards once
the report is written.
-/

set_option autoImplicit false

namespace ReplicaKeeper.Reconcile

/-- Where a reconcile came to an end, and why. -/
inductive Finding where
  | workloadUnreadable (error : ApiError)
  /-- The workload is not the incarnation that the scaler points to, or the scaler points to
  none. -/
  | otherWorkload
  /-- The workload manages nothing of the kind that is scaled. -/
  | noCandidate
  /-- No candidate could be read; the last one failed with `error`. -/
  | candidatesUnreadable (error : ApiError)
  /-- The scaler has no name or no uid. -/
  | ownerIncomplete
  | ownerRefused (error : OwnershipError)
  | patchRefused (error : ApiError)
  | scaled
  deriving DecidableEq, Repr

namespace Finding

def status : Finding → ConditionStatus
  | scaled => .success
  | _ => .error

def reason : Finding → ConditionReason
  | workloadUnreadable _ | otherWorkload => .cannotLocateWorkload
  | noCandidate | candidatesUnreadable _ => .cannotLocateDeployment
  | ownerIncomplete | ownerRefused _ | patchRefused _ => .cannotScaleDeployment
  | scaled => .reconcileSuccess

def message (config : Config) : Finding → String
  | workloadUnreadable error => config.messages.locateWorkload ++ ": " ++ error.message
  | otherWorkload => config.messages.locateWorkload
  | noCandidate => config.messages.locateDeployment
  | candidatesUnreadable error => config.messages.locateDeployment ++ ": " ++ error.message
  | ownerIncomplete =>
      config.messages.updateDeployment ++ ": owner misses .metadata.name or .metadata.uid"
  | ownerRefused error => config.messages.updateDeployment ++ ": " ++ error.message
  | patchRefused error => config.messages.scaleDeployment ++ ": " ++ error.message
  | scaled => ""

def outcome (config : Config) : Finding → Outcome
  | scaled => .done
  | _ => .requeueAfter config.retryDelay

/-- The condition that reports a finding made at a moment. -/
def condition (config : Config) (now : Time) (finding : Finding) : Condition :=
  ⟨.synced, finding.status, now, finding.reason, finding.message config⟩

/-- How a reconcile ends once the status write that reports the finding is answered. -/
def conclude (config : Config) (finding : Finding) :
    Except ApiError Scaler → Except StepError Outcome
  | .ok _ => .ok (finding.outcome config)
  | .error error =>
      if error.isNotFound then .ok (finding.outcome config) else .error (.updateStatusFailed error)

theorem conclude_ok (config : Config) (finding : Finding) (written : Scaler) :
    finding.conclude config (.ok written) = .ok (finding.outcome config) := rfl

theorem conclude_error (config : Config) (finding : Finding) (error : ApiError) :
    finding.conclude config (.error error) =
      if error.isNotFound then .ok (finding.outcome config)
      else .error (.updateStatusFailed error) := rfl

theorem status_eq_success_iff (finding : Finding) :
    finding.status = .success ↔ finding = scaled := by
  cases finding <;> simp [status]

theorem status_of_ne_scaled {finding : Finding} (h : finding ≠ scaled) :
    finding.status = .error := by
  cases finding with
  | scaled => exact absurd rfl h
  | _ => rfl

theorem outcome_of_ne_scaled (config : Config) {finding : Finding} (h : finding ≠ scaled) :
    finding.outcome config = .requeueAfter config.retryDelay := by
  cases finding with
  | scaled => exact absurd rfl h
  | _ => rfl

/-- A scaler that reports a finding says so in its `synced` condition. -/
theorem synced?_reporting (config : Config) (now : Time) (scaler : Scaler) (finding : Finding) :
    ∃ found, (scaler.reporting (finding.condition config now)).synced? = some found ∧
      found.status = finding.status ∧ found.reason = finding.reason ∧
        found.message = finding.message config := by
  have htype : (finding.condition config now).type = .synced := rfl
  obtain ⟨found, hfound, hequivalent⟩ := scaler.synced?_reporting htype
  obtain ⟨-, hstatus, hreason, hmessage⟩ := (Condition.equivalent_iff _ _).1 hequivalent
  exact ⟨found, hfound, hstatus, hreason, hmessage⟩

end Finding

end ReplicaKeeper.Reconcile
