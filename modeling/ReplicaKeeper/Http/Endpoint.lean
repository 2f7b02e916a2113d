import ReplicaKeeper.Http.Client
import ReplicaKeeper.Json.Writer
import ReplicaKeeper.Server.Shared

/-!
# A server behind HTTP

Lets a shared server answer HTTP requests, and keeps a record of them.
-/

set_option autoImplicit false

namespace ReplicaKeeper.Http

/-- A request with the status of its answer, and the time of a clock. -/
structure Exchange where
  time : Nat
  request : HttpRequest
  status : Nat

/-- A shared server with a clock and a record of requests. -/
structure Endpoint where
  shared : SharedServer := {}
  time : Nat := 0
  /-- The requests so far, the oldest first. -/
  exchanges : List Exchange := []

/-! ## Answers -/

/-- The answer with a document as its body. -/
def documentResponse (status : Nat) (body : Json) : HttpResponse := ⟨status, body.write.toUTF8⟩

/-- The answer that reports the result of a request. -/
def responseOf {α : Type} (encode : α → Json) : Except ApiError α → HttpResponse
  | .ok object => documentResponse 200 (encode object)
  | .error error => documentResponse error.statusCode (ErrorResponse.ofError error).encode

/-! ## Requests -/

/-- The collection with a group, version and plural. -/
def collection? (group version plural : String) : Option Collection :=
  [Collection.scalers, .workloads, .deployments].find? fun collection =>
    collection.groupVersion = group ++ "/" ++ version && collection.plural = plural

/-- What a path leads to: an object, or the status of one. -/
def target? (path : String) : Option (Collection × Key × Bool) :=
  match (path.splitOn "/") with
  | ["", "apis", group, version, "namespaces", ns, plural, name] =>
      (collection? group version plural).map fun collection => (collection, ⟨ns, name⟩, false)
  | ["", "apis", group, version, "namespaces", ns, plural, name, "status"] =>
      (collection? group version plural).map fun collection => (collection, ⟨ns, name⟩, true)
  | _ => none

/-- The answer to a request. -/
def respond (request : HttpRequest) (shared : SharedServer) : HttpResponse × SharedServer :=
  let store := SharedServer.store
  match request.method, target? request.uri.path, request.body with
  | .get, some (.scalers, key, false), _ =>
      let (result, shared) := store.getScaler key shared
      (responseOf Scaler.encode result, shared)
  | .get, some (.workloads, key, false), _ =>
      let (result, shared) := store.getWorkload key shared
      (responseOf Workload.encode result, shared)
  | .get, some (.deployments, key, false), _ =>
      let (result, shared) := store.getDeployment key shared
      (responseOf Deployment.encode result, shared)
  | .patch, some (.deployments, key, false), some patch =>
      let (result, shared) := store.patchDeployment key patch shared
      (responseOf Deployment.encode result, shared)
  | .put, some (.scalers, _, true), some body =>
      match body.decodeAs Scaler.decode with
      | .ok scaler =>
          let (result, shared) := store.updateStatus scaler shared
          (responseOf Scaler.encode result, shared)
      | .error _ => (responseOf Scaler.encode (.error .badRequest), shared)
  | _, _, _ => (responseOf Scaler.encode (.error .notFound), shared)

/-- Carries requests to the server. -/
def Endpoint.transport : Transport Endpoint where
  send request endpoint :=
    let (response, shared) := respond request endpoint.shared
    let exchanges := endpoint.exchanges ++ [⟨endpoint.time, request, response.status⟩]
    (some response, { endpoint with shared, exchanges })

end ReplicaKeeper.Http
