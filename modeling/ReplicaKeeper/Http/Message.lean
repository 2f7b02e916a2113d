import ReplicaKeeper.Api.Key
import ReplicaKeeper.Http.Uri
import ReplicaKeeper.Json.Basic

/-!
# Messages to and from a server

The requests that a client sends over HTTP and what it gets back.  A transport carries a request to
a server; it may fail to get an answer.
-/

set_option autoImplicit false

namespace ReplicaKeeper.Http

inductive Method where
  | get
  | patch
  | put
  deriving DecidableEq, Repr

def Method.text : Method → String
  | .get => "GET"
  | .patch => "PATCH"
  | .put => "PUT"

/-- A request.  Its body is a document. -/
structure HttpRequest where
  method : Method
  uri : Uri
  accept : Option String := none
  contentType : Option String := none
  body : Option Json := none

/-- An answer.  Its body may be any bytes. -/
structure HttpResponse where
  status : Nat
  body : ByteArray

/-- Whether an answer refuses the request. -/
def HttpResponse.isError (response : HttpResponse) : Bool :=
  400 ≤ response.status && response.status < 600

/-- Carries requests to a server; none is a connection that fails. -/
structure Transport (σ : Type) where
  send : HttpRequest → σ → Option HttpResponse × σ

/-! ## Where objects are -/

/-- The collections of objects on a server. -/
inductive Collection where
  | scalers
  | workloads
  | deployments
  deriving DecidableEq, Repr

namespace Collection

/-- The name of a collection in paths. -/
def plural : Collection → String
  | scalers => "manualscalertraits"
  | workloads => "containerizedworkloads"
  | deployments => "deployments"

/-- The API group and version of a collection. -/
def groupVersion : Collection → String
  | scalers | workloads => "core.oam.dev/v1alpha2"
  | deployments => "apps/v1"

/-- The path of a collection in a namespace. -/
def path (collection : Collection) (ns : String) : String :=
  "/apis/" ++ collection.groupVersion ++ "/namespaces/" ++ ns ++ "/" ++ collection.plural

/-- The path of an object.  Its namespace and its name are written as they are. -/
def objectPath (collection : Collection) (key : Key) : String :=
  collection.path key.ns ++ "/" ++ key.name

end Collection

end ReplicaKeeper.Http
