import ReplicaKeeper.Server.Store

/-!
# A server that is shared

Other clients change the objects on a server as well.  Their changes can be timed: one that waits
for an operation is carried out right after the next request of that operation has been answered,
and then is gone.  Of several changes that wait for one operation the oldest is carried out.
-/

set_option autoImplicit false

namespace ReplicaKeeper

/-- An object by its kind and its key. -/
structure ObjectName where
  kind : String
  key : Key
  deriving DecidableEq, Repr

/-- The name of an object in words, as in `Deployment default/frontend`. -/
def ObjectName.text (name : ObjectName) : String := name.kind ++ " " ++ name.key.text

/-- What another client does. -/
inductive Change where
  | createScaler (scaler : Scaler)
  | createWorkload (workload : Workload)
  | createDeployment (deployment : Deployment)
  | deleteScaler (key : Key)
  | injectFault (operation : Operation) (error : ApiError)
  /-- Patches the stored Deployment before every patch of others, when the result is one. -/
  | onBeforePatch (patch : Json)

/-- The writer that carries out a patch, or nothing when that would leave no Deployment. -/
def Change.writer (patch : Json) (deployment : Deployment) : Deployment :=
  match deployment.merge patch with
  | .ok changed => changed
  | .error _ => deployment

/-- Carries out a change. -/
def Change.run (change : Change) (server : Server) : Server :=
  match change with
  | .createScaler scaler => (server.createScaler scaler).2
  | .createWorkload workload => (server.createWorkload workload).2
  | .createDeployment deployment => (server.createDeployment deployment).2
  | .deleteScaler key => (server.deleteScaler key).2
  | .injectFault operation error => server.injectFault operation error
  | .onBeforePatch patch => server.onBeforePatch (Change.writer patch)

/-- The scaler or Deployment that a change creates. -/
def Change.created? : Change → Option ObjectName
  | .createScaler scaler => some ⟨Scaler.kind, scaler.metadata.key⟩
  | .createDeployment deployment => some ⟨Deployment.kind, deployment.metadata.key⟩
  | _ => none

/-- A server with changes of other clients that are to come. -/
structure SharedServer where
  server : Server := {}
  /-- The changes that wait for an operation, the oldest first. -/
  waiting : List (Operation × Change) := []
  /-- The scalers and Deployments that were created so far. -/
  created : List ObjectName := []

namespace SharedServer

/-- Carries out a change at once. -/
def apply (change : Change) (shared : SharedServer) : SharedServer :=
  let created :=
    match change.created? with
    | some name => if shared.created.contains name then shared.created else shared.created ++ [name]
    | none => shared.created
  { shared with server := change.run shared.server, created }

/-- Makes a change wait for an operation. -/
def applyAfter (operation : Operation) (change : Change) (shared : SharedServer) : SharedServer :=
  { shared with waiting := shared.waiting ++ [(operation, change)] }

/-- The oldest change that waits for an operation, and the changes without it. -/
def takeWaiting (operation : Operation) :
    List (Operation × Change) → Option (Change × List (Operation × Change))
  | [] => none
  | entry :: entries =>
      if entry.1 = operation then some (entry.2, entries)
      else (takeWaiting operation entries).map fun (change, rest) => (change, entry :: rest)

/-- Carries out the change that waits for an operation. -/
def afterAnswer (operation : Operation) (shared : SharedServer) : SharedServer :=
  match takeWaiting operation shared.waiting with
  | none => shared
  | some (change, waiting) => { shared with waiting }.apply change

/-- Answers a request, and then lets the other clients act. -/
def answer {α : Type} (operation : Operation) (request : Server → α × Server)
    (shared : SharedServer) : α × SharedServer :=
  let (result, server) := request shared.server
  (result, { shared with server }.afterAnswer operation)

/-- A shared server answers requests at once. -/
def store : Store SharedServer where
  getScaler key := answer .getScaler (Server.getScaler key)
  getWorkload key := answer .getWorkload (Server.getWorkload key)
  getDeployment key := answer .getDeployment (Server.getDeployment key)
  patchDeployment key patch := answer .patchDeployment (Server.patchDeployment key patch)
  updateStatus scaler := answer .updateStatus (Server.updateStatus scaler)

/-- The present form of a scaler or Deployment; null when there is none. -/
def present (shared : SharedServer) (name : ObjectName) : Json :=
  let found :=
    if name.kind = Scaler.kind then (Entries.get? shared.server.scalers name.key).map Scaler.encode
    else (Entries.get? shared.server.deployments name.key).map Deployment.encode
  found.getD .null

end SharedServer

end ReplicaKeeper
