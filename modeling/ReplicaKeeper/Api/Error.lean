import ReplicaKeeper.Decode.Basic

/-!
# Failed requests

A request to the API server fails for one of a few reasons.  A server that refuses a request names
the reason in its answer; a reason with another name, and a request without a readable answer, count
as `other`.
-/

set_option autoImplicit false

namespace ReplicaKeeper

/-- Why a request failed. -/
inductive ApiError where
  | notFound
  | alreadyExists
  | badRequest
  | conflict
  | invalid
  | internalError
  | timeout
  | serverTimeout
  | other
  deriving DecidableEq, Repr

namespace ApiError

def message : ApiError → String
  | notFound => "object not found"
  | alreadyExists => "object already exists"
  | badRequest => "bad request"
  | conflict => "conflict"
  | invalid => "invalid object"
  | internalError => "internal error"
  | timeout => "timeout"
  | serverTimeout => "server timeout"
  | other => "other error"

def isNotFound (error : ApiError) : Bool := error = notFound

/-- The name under which servers report an error; an error of another kind has its own name. -/
def reason : ApiError → String
  | notFound => "NotFound"
  | alreadyExists => "AlreadyExists"
  | badRequest => "BadRequest"
  | conflict => "Conflict"
  | invalid => "Invalid"
  | internalError => "InternalError"
  | timeout => "Timeout"
  | serverTimeout => "ServerTimeout"
  | other => "Other"

/-- The error that servers report under a name. -/
def ofReason : String → ApiError
  | "NotFound" => notFound
  | "AlreadyExists" => alreadyExists
  | "BadRequest" => badRequest
  | "Conflict" => conflict
  | "Invalid" => invalid
  | "InternalError" => internalError
  | "Timeout" => timeout
  | "ServerTimeout" => serverTimeout
  | _ => other

/-- The status code of an answer that reports the error. -/
def statusCode : ApiError → Nat
  | notFound => 404
  | alreadyExists => 409
  | badRequest => 400
  | conflict => 409
  | invalid => 422
  | timeout => 504
  | internalError | serverTimeout | other => 500

end ApiError

/-! ## Answers that refuse a request -/

/-- The body of an answer that refuses a request. -/
structure ErrorResponse where
  status : String
  message : String
  reason : String
  code : Nat
  deriving DecidableEq, Repr

namespace ErrorResponse

/-- The fields in the order of their declaration, as elements of a sequence. -/
def elements : ElementReader ErrorResponse := do
  let expected := "struct ErrorResponse with 4 elements"
  let status ← .nextRequired 0 expected .string
  let message ← .next .string
  let reason ← .next .string
  let code ← .nextRequired 3 expected .uint16
  return ⟨status, message.getD "", reason.getD "", code⟩

def decode : Decoder ErrorResponse
  | .arr items => elements.run .surplusElements items
  | value => do
      let members ← Decoder.members "struct ErrorResponse" value
      let code ← members.field "code" .uint16
      let message ← members.field "message" .string
      let reason ← members.field "reason" .string
      let status ← members.field "status" .string
      let status ← required "status" status
      let code ← required "code" code
      return ⟨status, message.getD "", reason.getD "", code⟩

/-- The answer that reports an error. -/
def ofError (error : ApiError) : ErrorResponse :=
  ⟨"Failure", error.message, error.reason, error.statusCode⟩

def encode (response : ErrorResponse) : Json :=
  .record [("code", some (.int response.code)), ("message", some (.str response.message)),
    ("reason", some (.str response.reason)), ("status", some (.str response.status))]

end ErrorResponse

/-- How a request failed. -/
inductive RequestFailure where
  /-- The server refused it. -/
  | refused (response : ErrorResponse)
  /-- There is no answer, or none that can be read. -/
  | unanswered
  deriving DecidableEq, Repr

def RequestFailure.error : RequestFailure → ApiError
  | .refused response => .ofReason response.reason
  | .unanswered => .other

end ReplicaKeeper
