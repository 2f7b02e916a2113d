import ReplicaKeeper.Api.Error
import ReplicaKeeper.Api.Key
import ReplicaKeeper.Object.Deployment
import ReplicaKeeper.Object.Workload

/-!
# Requests and responses

What a reconcile asks of the API server, and what it is told.
-/

set_option autoImplicit false

namespace ReplicaKeeper

/-- A request of a reconcile. -/
inductive Request where
  | getWorkload (key : Key)
  | getDeployment (key : Key)
  /-- A merge patch for a Deployment. -/
  | patchDeployment (key : Key) (patch : Json)
  /-- Replaces the status of a scaler.  The resource version that it carries must be the present
  one. -/
  | updateStatus (scaler : Scaler)

/-- The response to a request. -/
inductive Response where
  | workload (result : Except ApiError Workload)
  | deployment (result : Except ApiError Deployment)
  | patched (result : Except ApiError Deployment)
  | statusUpdated (result : Except ApiError Scaler)

/-- The object that a request is about, with its kind. -/
def Request.target : Request → String
  | getWorkload key => Workload.kind ++ "/" ++ key.text
  | getDeployment key => Deployment.kind ++ "/" ++ key.text
  | patchDeployment key _ => Deployment.kind ++ "/" ++ key.text
  | updateStatus scaler => Scaler.kind ++ "/" ++ scaler.metadata.key.text

end ReplicaKeeper
