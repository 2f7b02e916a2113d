import ReplicaKeeper.Reconcile.Step
import ReplicaKeeper.Reconcile.Store

/-!
# A reconcile under way

A session is a reconcile between two requests: the scaler as it was read, the state, and the
response to the last request.  `advance` makes one step and sends its request, so that several
sessions can take turns on one store.  `run` makes steps until the reconcile has ended.

A step brings the reconcile closer to its end whatever the response is: either the stage comes
later, or a candidate has been passed over.  `remaining_step` says so, and `run` terminates by it.
-/

set_option autoImplicit false

namespace ReplicaKeeper.Reconcile

/-! ## How much is left -/

/-- How many stages are ahead at most. -/
def Stage.rank : Stage → Nat
  | .init => 5
  | .awaiting .afterGetWorkload => 4
  | .awaiting .afterGetDeployment => 3
  | .awaiting .afterPatchDeployment => 2
  | .awaiting .afterUpdateStatus => 1
  | .done => 0
  | .failed _ => 0

/-- Whether a reconcile at a stage has ended. -/
def Stage.isFinal : Stage → Bool
  | .done | .failed _ => true
  | _ => false

/-- How many candidates are left. -/
def State.candidatesLeft (state : State) : Nat := state.candidates.length - state.candidateIndex

/-- Whether a state is closer to the end than another one. -/
def State.Closer (later earlier : State) : Prop :=
  Prod.Lex (· < ·) (· < ·) (later.stage.rank, later.candidatesLeft)
    (earlier.stage.rank, earlier.candidatesLeft)

theorem State.Closer.of_rank {later earlier : State}
    (h : later.stage.rank < earlier.stage.rank) : later.Closer earlier :=
  Prod.Lex.left _ _ h

theorem State.Closer.of_candidates {later earlier : State}
    (hrank : later.stage.rank = earlier.stage.rank)
    (h : later.candidatesLeft < earlier.candidatesLeft) : later.Closer earlier := by
  unfold State.Closer
  rw [hrank]
  exact Prod.Lex.right _ h

section Ranks

variable (now : Time) (config : Config) (scaler : Scaler)

theorem rank_takeWorkload (workload : Workload) (state : State) :
    (takeWorkload now config scaler workload state).1.stage.rank < 4 := by
  unfold takeWorkload
  split
  · split <;> simp [Stage.rank]
  · simp [Stage.rank]

theorem rank_scale (deployment : Deployment) (state : State) :
    (scale now config scaler deployment state).1.stage.rank < 3 := by
  unfold scale
  split
  · simp [Stage.rank]
  · split <;> simp [Stage.rank]

theorem closer_nextCandidate (error : ApiError) (state : State)
    (h : state.stage = .awaiting .afterGetDeployment) :
    (nextCandidate now config scaler error state).1.Closer state := by
  unfold nextCandidate
  dsimp only
  split
  · next candidate hcandidate =>
    refine .of_candidates (by simp [h, Stage.rank]) ?_
    obtain ⟨hlt, _⟩ := List.getElem?_eq_some_iff.1 hcandidate
    simp only [askFor, State.candidatesLeft]
    omega
  · exact .of_rank (by simp [h, Stage.rank])

/-- Every step of a reconcile that has not ended brings it closer to its end. -/
theorem remaining_step (response : Option Response) (state : State)
    (h : state.stage.isFinal = false) : (step now config scaler response state).1.Closer state := by
  unfold step
  split
  · next hstage => exact .of_rank (by simp [hstage, Stage.rank])
  · next hstage =>
    refine .of_rank ?_
    rw [hstage]
    split
    · exact rank_takeWorkload now config scaler _ state
    · simp [Stage.rank]
    · simp [Stage.rank]
  · next hstage =>
    split
    · refine .of_rank ?_
      rw [hstage]
      exact rank_scale now config scaler _ state
    · exact closer_nextCandidate now config scaler _ state hstage
    · exact .of_rank (by simp [hstage, Stage.rank])
  · next hstage =>
    refine .of_rank ?_
    rw [hstage]
    split <;> simp [Stage.rank]
  · next hstage =>
    refine .of_rank ?_
    rw [hstage]
    split
    · simp [Stage.rank]
    · split <;> simp [Stage.rank]
    · simp [Stage.rank]
  · next hstage => simp [hstage, Stage.isFinal] at h
  · next hstage => simp [hstage, Stage.isFinal] at h

/-- A reconcile that has ended stays as it is. -/
theorem step_of_isFinal (response : Option Response) (state : State)
    (h : state.stage.isFinal = true) : (step now config scaler response state).1 = state := by
  unfold step
  split <;> simp_all [Stage.isFinal]

end Ranks

/-! ## Sessions -/

/-- A reconcile under way. -/
structure Session where
  scaler : Scaler
  state : State := {}
  response : Option Response := none

namespace Session

variable {σ : Type}

/-- Makes one step, and the request that it asks for. -/
def advance (now : Time) (config : Config) (store : Store σ) (session : Session) (world : σ) :
    Session × σ :=
  match step now config session.scaler session.response session.state with
  | (state, none) => ({ session with state, response := none }, world)
  | (state, some request) =>
      let (response, world) := store.send request world
      ({ session with state, response := some response }, world)

theorem state_advance (now : Time) (config : Config) (store : Store σ) (session : Session)
    (world : σ) :
    (session.advance now config store world).1.state =
      (step now config session.scaler session.response session.state).1 := by
  unfold advance
  split <;> simp [*]

/-- Makes steps until the reconcile has ended. -/
def run (now : Time) (config : Config) (store : Store σ) (session : Session) (world : σ) :
    Except StepError Outcome × σ :=
  if session.state.stage.isFinal then
    match session.state.error? with
    | none => (.ok session.state.outcome, world)
    | some error => (.error error, world)
  else
    let next := session.advance now config store world
    run now config store next.1 next.2
  termination_by (session.state.stage.rank, session.state.candidatesLeft)
  decreasing_by
    rw [state_advance]
    exact remaining_step now config session.scaler session.response session.state
      (Bool.eq_false_iff.2 ‹_›)

end Session

end ReplicaKeeper.Reconcile
