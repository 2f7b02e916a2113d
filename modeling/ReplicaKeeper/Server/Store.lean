import ReplicaKeeper.Reconcile.Store
import ReplicaKeeper.Server.Objects

/-!
# The server as a store

A reconcile can talk to a server in memory directly.
-/

set_option autoImplicit false

namespace ReplicaKeeper

/-- A server in memory answers requests at once. -/
def Server.store : Store Server where
  getScaler := Server.getScaler
  getWorkload := Server.getWorkload
  getDeployment := Server.getDeployment
  patchDeployment := Server.patchDeployment
  updateStatus := Server.updateStatus

end ReplicaKeeper
