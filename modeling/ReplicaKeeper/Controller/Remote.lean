import ReplicaKeeper.Controller.Basic
import ReplicaKeeper.Http.Endpoint

/-!
# A controller of a remote server

A controller that reaches its server over HTTP.  It runs for a while, or until a signal tells it to
end: then it drops what is due later.
-/

set_option autoImplicit false

namespace ReplicaKeeper.Controller

open Http Reconcile

/-- How a controller acts on the server behind an endpoint.  Conditions get the moment `now`. -/
def remote (now : Time) (config : Config) : Behaviour Endpoint where
  attempt instant attempts endpoint :=
    Attempt.runAll now config (Http.store Endpoint.transport) attempts
      { endpoint with time := instant }
  afterError := afterError config

/-- How a run of a controller ended. -/
structure Ending where
  endpoint : Endpoint
  /-- When the controller returned, if it did. -/
  endedAt : Option Nat

/-- Runs a controller up to the instant `stop`; a signal that comes before that, but not at the
start, ends it.  A controller that stops at the start does not get to see anything. -/
def runRemote (now : Time) (config : Config) (stop : Nat) (signal : Option Nat)
    (watches : List Watch) (shared : SharedServer) : Except Crash Ending := do
  let start : State Endpoint := { watches, world := { shared } }
  let signal := signal.filter fun instant => 0 < instant && instant < stop
  if stop = 0 then return ⟨start.world, none⟩
  let state ← run (remote now config) (signal.getD stop) 0 (← begin start)
  return ⟨state.world, signal⟩

end ReplicaKeeper.Controller
