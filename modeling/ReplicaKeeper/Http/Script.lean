import ReplicaKeeper.Http.Client

/-!
# Scripted answers

A transport that gives answers from a list, one after another, and records the requests.  Once the
list is used up every connection fails.
-/

set_option autoImplicit false

namespace ReplicaKeeper.Http

/-- The answers to come, where none is a connection that fails, and the requests so far. -/
structure Script where
  answers : List (Option HttpResponse)
  /-- The requests so far, the oldest first. -/
  requests : List HttpRequest := []

/-- Takes the next answer. -/
def Script.transport : Transport Script where
  send request script :=
    let requests := script.requests ++ [request]
    match script.answers with
    | [] => (none, { script with requests })
    | answer :: answers => (answer, { answers, requests })

end ReplicaKeeper.Http
