import ReplicaKeeper.Controller.Agenda
import ReplicaKeeper.Controller.Watch
import ReplicaKeeper.Reconcile.Attempt

/-!
# The controller

The controller reconciles a scaler when a watch shows it, when a Deployment that names it as an
owner changes, when a workload that it refers to changes, and when the delay of its last action has
passed.  A new reason replaces a delay that is still running.  A scaler that is no longer in the
cache is not reconciled.

Time is counted in milliseconds and passes from one instant at which something happens to the next.
What the watches show at an instant puts scalers on the agenda, shortly after that instant.  The
scalers that the agenda gives at an instant are reconciled together, request by request in turns.
-/

set_option autoImplicit false

namespace ReplicaKeeper.Controller

open Reconcile

/-! ## Crashes -/

/-- What ends a controller before its time. -/
inductive Crash where
  | watch (error : WatchError)
  | agenda (error : AgendaError)
  /-- A delay ends after the last instant of the clock. -/
  | clockOverflow
  deriving DecidableEq, Repr

def Crash.message : Crash → String
  | .watch error => error.message
  | .agenda .tooFarAhead => "invalid deadline; err=Invalid"
  | .clockOverflow => "overflow when adding duration to instant"

/-! ## States -/

/-- How a controller acts on the world around it, over the states `σ` of that world. -/
structure Behaviour (σ : Type) where
  /-- Runs attempts at an instant, and tells how they ended in the order of their ends. -/
  attempt : Nat → List (ObjectRef × Attempt) → σ →
    List (ObjectRef × Except ReconcileError Action) × σ
  /-- What to do after a reconcile that failed. -/
  afterError : Action

/-- The state of a controller. -/
structure State (σ : Type) where
  cache : Cache := []
  /-- When scalers are to be reconciled. -/
  agenda : Agenda ObjectRef := {}
  /-- The watches, in the order in which they began to wait. -/
  watches : List Watch := []
  world : σ

variable {σ : Type}

/-- Puts a scaler on the agenda. -/
def plan (due : Nat) (agenda : Agenda ObjectRef) (reference : ObjectRef) :
    Except Crash (Agenda ObjectRef) :=
  (agenda.set reference due).mapError .agenda

/-! ## What the watches show -/

/-- How long after a reason for it a scaler is reconciled, in milliseconds. -/
def pause : Nat := 1

/-- Looks at the watches that have something to show. -/
def look (now : Nat) (awake asleep : List Watch) (state : State σ) : Except Crash (State σ) := do
  let looked ← (Watch.takeTurns state.cache awake).mapError .watch
  let agenda ← looked.reasons.foldlM (plan (now + pause)) state.agenda
  return { state with cache := looked.cache, agenda, watches := asleep ++ looked.watches }

/-- Looks at what the watches show before any change. -/
def begin (state : State σ) : Except Crash (State σ) := look 0 state.watches [] state

/-- Looks at what the watches show at an instant. -/
def notice (now : Nat) (state : State σ) : Except Crash (State σ) :=
  let (awake, asleep) := state.watches.partition (·.isAwake now)
  look now (awake.map (·.wake now)) asleep state

/-! ## Reconciling -/

/-- The shortest delay, in milliseconds. -/
def shortestDelay : Nat := 1

/-- The number of seconds that the clock can count. -/
def clockSeconds : Nat := 9223372036854775807

/-- When an action makes a scaler due again. -/
def dueAfter (now : Nat) : Action → Except Crash (Option Nat)
  | .awaitChange => .ok none
  | .requeue seconds =>
      if seconds < clockSeconds then .ok (some (now + max shortestDelay (seconds * 1000)))
      else .error .clockOverflow

/-- Plans what follows on the end of an attempt. -/
def follow (behaviour : Behaviour σ) (now : Nat) (agenda : Agenda ObjectRef)
    (ending : ObjectRef × Except ReconcileError Action) : Except Crash (Agenda ObjectRef) := do
  let action :=
    match ending.2 with
    | .ok action => action
    | .error _ => behaviour.afterError
  match ← dueAfter now action with
  | none => return agenda
  | some due => plan due agenda ending.1

/-- Reconciles the scalers that are due and still in the cache. -/
def serve (behaviour : Behaviour σ) (now : Nat) (state : State σ) : Except Crash (State σ) := do
  let (references, agenda) := state.agenda.takeAllDue now
  let attempts := references.filterMap fun reference =>
    (Entries.get? state.cache reference).map fun scaler => (reference, Attempt.start scaler)
  let (endings, world) := behaviour.attempt now attempts state.world
  let agenda ← endings.foldlM (follow behaviour now) agenda
  return { state with agenda, world }

/-! ## Runs -/

/-- Everything that happens at an instant. -/
def instant (behaviour : Behaviour σ) (now : Nat) (state : State σ) : Except Crash (State σ) := do
  serve behaviour now (← notice now state)

/-- The next instant at which something happens. -/
def nextInstant (state : State σ) : Option Nat :=
  (state.agenda.alarm.toList ++ state.watches.filterMap Watch.nextInstant?).min?

/-- Runs a controller from an instant on, up to the instant `stop`. -/
def run (behaviour : Behaviour σ) (stop now : Nat) (state : State σ) : Except Crash (State σ) :=
  match instant behaviour now state with
  | .error crash => .error crash
  | .ok state =>
      match nextInstant state with
      | none => .ok state
      | some next => if now < next ∧ next ≤ stop then run behaviour stop next state else .ok state
  termination_by stop - now
  decreasing_by omega

end ReplicaKeeper.Controller
