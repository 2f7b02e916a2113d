/-!
# Configuration

What a controller can be told: its delays, what it scales, whether it locks, and the wording of its
messages.  Delays are in whole seconds.
-/

set_option autoImplicit false

namespace ReplicaKeeper

/-- The starts of the messages in a condition that reports a failure. -/
structure ErrorMessages where
  locateWorkload : String := "cannot find workload"
  locateDeployment : String := "cannot find deployment"
  updateDeployment : String := "cannot update deployment"
  scaleDeployment : String := "cannot scale deployment"
  deriving DecidableEq, Repr

structure Config where
  /-- The delay after a failure that was reported on the status. -/
  retryDelay : Nat := 30
  /-- The delay after a reconcile that failed outright. -/
  errorBackoff : Nat := 10
  /-- The kind of the resource of a workload that is scaled. -/
  deploymentKind : String := "Deployment"
  /-- Whether a patch carries the resource version that it was computed against. -/
  optimisticLock : Bool := false
  messages : ErrorMessages := {}
  deriving DecidableEq, Repr

end ReplicaKeeper
