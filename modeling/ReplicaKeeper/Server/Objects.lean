import ReplicaKeeper.MergePatch
import ReplicaKeeper.Server.State

/-!
# Objects on a server

Creating, deleting, reading, patching and reporting.  Every write gives the object a fresh resource
version, except that a patch without effect changes nothing.  A write that carries a resource
version other than the present one is refused, and no request changes the key or the uid of an
object.
-/

set_option autoImplicit false

namespace ReplicaKeeper

/-- What a Deployment becomes under a merge patch, if that is a Deployment. -/
def Deployment.merge (deployment : Deployment) (patch : Json) : Except DecodeError Deployment :=
  (MergePatch.apply patch deployment.encode).decodeAs Deployment.decode

/-- The resource version that a patch asks for. -/
def MergePatch.version? (patch : Json) : Option String :=
  (patch.lookup ["metadata", "resourceVersion"]).bind Json.asString?

namespace Server

/-! ## Creating and deleting -/

/-- Metadata with a uid, which is new if it was absent, and a new resource version. -/
def stamp (metadata : ObjectMeta) (server : Server) : ObjectMeta × Server :=
  let (uid, server) :=
    match metadata.uid with
    | some uid => (uid, server)
    | none => server.nextUid
  let (version, server) := server.nextVersion
  ({ metadata with uid := some uid, resourceVersion := some version }, server)

/-- Stores a scaler, in the place of another one with the same key. -/
def createScaler (scaler : Scaler) (server : Server) : Scaler × Server :=
  let (metadata, server) := server.stamp scaler.metadata
  let scaler := { scaler with metadata }
  (scaler, { server with scalers := Entries.insert metadata.key scaler server.scalers })

/-- Stores a workload, in the place of another one with the same key. -/
def createWorkload (workload : Workload) (server : Server) : Workload × Server :=
  let (metadata, server) := server.stamp workload.metadata
  let workload := { workload with metadata }
  (workload, { server with workloads := Entries.insert metadata.key workload server.workloads })

/-- Stores a Deployment, in the place of another one with the same key. -/
def createDeployment (deployment : Deployment) (server : Server) : Deployment × Server :=
  let (metadata, server) := server.stamp deployment.metadata
  let deployment := { deployment with metadata }
  (deployment,
    { server with deployments := Entries.insert metadata.key deployment server.deployments })

/-- Deletes a scaler and says whether there was one. -/
def deleteScaler (key : Key) (server : Server) : Bool × Server :=
  (Entries.contains server.scalers key,
    { server with scalers := Entries.erase key server.scalers })

/-- Makes another writer change the stored Deployment before every patch. -/
def onBeforePatch (hook : Deployment → Deployment) (server : Server) : Server :=
  { server with beforePatch := some hook }

/-! ## Reading -/

/-- The object under a key. -/
def find {α : Type} (objects : Entries Key α) (key : Key) : Except ApiError α :=
  match Entries.get? objects key with
  | some object => .ok object
  | none => .error .notFound

def getScaler (key : Key) (server : Server) : Except ApiError Scaler × Server :=
  match server.receive .getScaler key with
  | (some error, server) => (.error error, server)
  | (none, server) => (find server.scalers key, server)

def getWorkload (key : Key) (server : Server) : Except ApiError Workload × Server :=
  match server.receive .getWorkload key with
  | (some error, server) => (.error error, server)
  | (none, server) => (find server.workloads key, server)

def getDeployment (key : Key) (server : Server) : Except ApiError Deployment × Server :=
  match server.receive .getDeployment key with
  | (some error, server) => (.error error, server)
  | (none, server) => (find server.deployments key, server)

/-! ## Patching a Deployment -/

/-- The stored Deployment after the other writer, if there is one, has changed it. -/
def runBeforePatch (key : Key) (stored : Deployment) (server : Server) : Deployment × Server :=
  match server.beforePatch with
  | none => (stored, server)
  | some hook =>
      let (version, server) := server.nextVersion
      let changed := hook stored
      let current :=
        { changed with metadata := { changed.metadata with resourceVersion := some version } }
      (current, { server with deployments := Entries.insert key current server.deployments })

/-- Whether a patch asks for another resource version than the current one. -/
def isStale (patch : Json) (current : Deployment) : Bool :=
  match MergePatch.version? patch with
  | some version => current.metadata.resourceVersion ≠ some version
  | none => false

/-- The Deployment that a patch makes of the current one, with the version of the current one. -/
def patched (key : Key) (patch : Json) (current : Deployment) : Except ApiError Deployment :=
  if isStale patch current then .error .conflict
  else
    match current.merge patch with
    | .error _ => .error .badRequest
    | .ok merged =>
        if merged.metadata.key ≠ key ∨ merged.metadata.uid ≠ current.metadata.uid then
          .error .badRequest
        else
          let version := current.metadata.resourceVersion
          .ok { merged with metadata := { merged.metadata with resourceVersion := version } }

/-- Stores a patched Deployment under a fresh version, unless it is the current one. -/
def storePatched (key : Key) (current merged : Deployment) (server : Server) :
    Deployment × Server :=
  if merged = current then (merged, server)
  else
    let (version, server) := server.nextVersion
    let fresh :=
      { merged with metadata := { merged.metadata with resourceVersion := some version } }
    (fresh, { server with deployments := Entries.insert key fresh server.deployments })

def patchDeployment (key : Key) (patch : Json) (server : Server) :
    Except ApiError Deployment × Server :=
  match server.receive .patchDeployment key with
  | (some error, server) => (.error error, server)
  | (none, server) =>
      match Entries.get? server.deployments key with
      | none => (.error .notFound, server)
      | some stored =>
          let (current, server) := server.runBeforePatch key stored
          match patched key patch current with
          | .error error => (.error error, server)
          | .ok merged =>
              let (result, server) := server.storePatched key current merged
              (.ok result, server)

/-! ## Reporting on a scaler -/

/-- Whether a status may be written: uid and resource version, where given, are the present ones. -/
def mayReport (given present : ObjectMeta) : Bool :=
  (given.uid.isNone || given.uid = present.uid) &&
    (given.resourceVersion.isNone || given.resourceVersion = present.resourceVersion)

/-- Writes the status of a scaler and nothing else of it. -/
def updateStatus (scaler : Scaler) (server : Server) : Except ApiError Scaler × Server :=
  let key := scaler.metadata.key
  match server.receive .updateStatus key with
  | (some error, server) => (.error error, server)
  | (none, server) =>
      match Entries.get? server.scalers key with
      | none => (.error .notFound, server)
      | some current =>
          if mayReport scaler.metadata current.metadata then
            let (version, server) := server.nextVersion
            let metadata := { current.metadata with resourceVersion := some version }
            let updated := { current with metadata, status := scaler.status }
            (.ok updated, { server with scalers := Entries.insert key updated server.scalers })
          else (.error .conflict, server)

end Server

end ReplicaKeeper
