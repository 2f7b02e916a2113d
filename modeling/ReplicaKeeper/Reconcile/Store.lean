import ReplicaKeeper.Api.Request

/-!
# Stores

A store is whatever answers the requests of a reconcile: a server in memory, or a client of a server
that is far away.  It may keep a state of its own, and its answers may depend on everything that
happened before.
-/

set_option autoImplicit false

namespace ReplicaKeeper

/-- The requests that can be made, over a state `σ`. -/
structure Store (σ : Type) where
  getScaler : Key → σ → Except ApiError Scaler × σ
  getWorkload : Key → σ → Except ApiError Workload × σ
  getDeployment : Key → σ → Except ApiError Deployment × σ
  /-- Applies a merge patch to a Deployment. -/
  patchDeployment : Key → Json → σ → Except ApiError Deployment × σ
  /-- Replaces the status of a scaler. -/
  updateStatus : Scaler → σ → Except ApiError Scaler × σ

namespace Store

variable {σ : Type}

/-- Makes a request. -/
def send (store : Store σ) (request : Request) (world : σ) : Response × σ :=
  match request with
  | .getWorkload key =>
      let (result, world) := store.getWorkload key world
      (.workload result, world)
  | .getDeployment key =>
      let (result, world) := store.getDeployment key world
      (.deployment result, world)
  | .patchDeployment key patch =>
      let (result, world) := store.patchDeployment key patch world
      (.patched result, world)
  | .updateStatus scaler =>
      let (result, world) := store.updateStatus scaler world
      (.statusUpdated result, world)

end Store

end ReplicaKeeper
