import ReplicaKeeper.Api.Request

/-!
# The state of an API server

An API server in memory holds objects under their keys.  Uids and resource versions are drawn from
two counters that all kinds share.  Requests are recorded, and faults that were injected answer the
next requests of their operation, the oldest fault first.
-/

set_option autoImplicit false

namespace ReplicaKeeper

/-- What a request does. -/
inductive Operation where
  | getScaler
  | getWorkload
  | getDeployment
  | patchDeployment
  | updateStatus
  deriving DecidableEq, Repr

def Operation.text : Operation → String
  | .getScaler => "GetScaler"
  | .getWorkload => "GetWorkload"
  | .getDeployment => "GetDeployment"
  | .patchDeployment => "PatchDeployment"
  | .updateStatus => "UpdateStatus"

/-- A request that a server was sent. -/
structure RequestRecord where
  operation : Operation
  key : Key
  deriving DecidableEq, Repr

/-- A request in words, as in `GetScaler default/frontend`. -/
def RequestRecord.text (record : RequestRecord) : String :=
  record.operation.text ++ " " ++ record.key.text

/-- An API server in memory. -/
structure Server where
  scalers : Entries Key Scaler := []
  workloads : Entries Key Workload := []
  deployments : Entries Key Deployment := []
  uidCounter : Nat := 0
  versionCounter : Nat := 0
  /-- The requests so far, the oldest first. -/
  requests : List RequestRecord := []
  /-- The faults that are pending, the oldest first. -/
  faults : List (Operation × ApiError) := []
  /-- Changes the stored Deployment right before every patch, like another writer that is faster. -/
  beforePatch : Option (Deployment → Deployment) := none

namespace Server

/-! ## Counters -/

/-- A new uid. -/
def nextUid (server : Server) : String × Server :=
  let n := server.uidCounter + 1
  ("uid-" ++ toString n, { server with uidCounter := n })

/-- A new resource version. -/
def nextVersion (server : Server) : String × Server :=
  let n := server.versionCounter + 1
  (toString n, { server with versionCounter := n })

/-! ## Faults and requests -/

/-- The oldest fault of an operation, and the faults without it. -/
def takeFault (operation : Operation) :
    List (Operation × ApiError) → Option (ApiError × List (Operation × ApiError))
  | [] => none
  | fault :: faults =>
      if fault.1 = operation then some (fault.2, faults)
      else (takeFault operation faults).map fun (error, rest) => (error, fault :: rest)

/-- Makes a coming request of an operation fail. -/
def injectFault (operation : Operation) (error : ApiError) (server : Server) : Server :=
  { server with faults := server.faults ++ [(operation, error)] }

/-- Records a request and takes the fault that answers it, if there is one. -/
def receive (operation : Operation) (key : Key) (server : Server) : Option ApiError × Server :=
  let server := { server with requests := server.requests ++ [⟨operation, key⟩] }
  match takeFault operation server.faults with
  | none => (none, server)
  | some (error, faults) => (some error, { server with faults })

/-- How many requests of an operation there were. -/
def requestCount (operation : Operation) (server : Server) : Nat :=
  (server.requests.filter fun record => record.operation = operation).length

end Server

end ReplicaKeeper
