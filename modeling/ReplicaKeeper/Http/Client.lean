import ReplicaKeeper.Http.Message
import ReplicaKeeper.Json.Reader
import ReplicaKeeper.Reconcile.Store

/-!
# A store over HTTP

The requests of a reconcile as HTTP requests.  A request whose target is refused is not sent.  An
answer that refuses the request says why in its body; every other answer is decoded as the object.
-/

set_option autoImplicit false

namespace ReplicaKeeper.Http

variable {σ α : Type}

/-! ## Requests -/

/-- Reads an object. -/
def getRequest? (collection : Collection) (key : Key) : Option HttpRequest := do
  let uri ← Uri.parse? (collection.objectPath key)
  return { method := .get, uri }

/-- Applies a merge patch to an object. -/
def patchRequest? (collection : Collection) (key : Key) (patch : Json) : Option HttpRequest := do
  let uri ← Uri.parse? (collection.objectPath key ++ "?")
  return { method := .patch, uri, accept := some "application/json",
           contentType := some "application/merge-patch+json", body := some patch }

/-- Replaces the status of an object. -/
def putStatusRequest? (collection : Collection) (key : Key) (object : Json) :
    Option HttpRequest := do
  let uri ← Uri.parse? (collection.objectPath key ++ "/status?")
  return { method := .put, uri, contentType := some "application/json", body := some object }

/-! ## Answers -/

/-- What a body holds. -/
def decodeBody (decode : Decoder α) (body : ByteArray) : Option α := do
  let text ← String.fromUTF8? body
  let document ← Json.parseDocument? text
  (decode document).toOption

/-- What an answer says. -/
def readResponse (decode : Decoder α) (response : HttpResponse) : Except RequestFailure α :=
  if response.isError then
    match decodeBody ErrorResponse.decode response.body with
    | some refusal => .error (.refused refusal)
    | none => .error .unanswered
  else
    match decodeBody decode response.body with
    | some object => .ok object
    | none => .error .unanswered

/-- Sends a request and reads the answer. -/
def call (transport : Transport σ) (decode : Decoder α) (request : Option HttpRequest) (world : σ) :
    Except ApiError α × σ :=
  match request with
  | none => (.error .other, world)
  | some request =>
      match transport.send request world with
      | (none, world) => (.error .other, world)
      | (some response, world) =>
          ((readResponse decode response).mapError RequestFailure.error, world)

/-- The store on the other side of a transport. -/
def store (transport : Transport σ) : Store σ where
  getScaler key := call transport Scaler.decode (getRequest? .scalers key)
  getWorkload key := call transport Workload.decode (getRequest? .workloads key)
  getDeployment key := call transport Deployment.decode (getRequest? .deployments key)
  patchDeployment key patch :=
    call transport Deployment.decode (patchRequest? .deployments key patch)
  updateStatus scaler :=
    call transport Scaler.decode (putStatusRequest? .scalers scaler.metadata.key scaler.encode)

end ReplicaKeeper.Http
