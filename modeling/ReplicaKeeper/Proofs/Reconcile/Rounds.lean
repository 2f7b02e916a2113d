import ReplicaKeeper.Proofs.Reconcile.Move

/-!
# Rounds of a session

A session is run round by round: each round makes one step and the request of the step.  Rounds lead
to no other end than the run, `run_rounds`, and every run comes to its end after some rounds,
`exists_rounds_isFinal`; so what every round keeps holds of a whole run.
-/

set_option autoImplicit false

namespace ReplicaKeeper.Reconcile

/-- How a reconcile that has ended in a state ends. -/
def State.verdict (state : State) : Except StepError Outcome :=
  match state.error? with
  | none => .ok state.outcome
  | some error => .error error

namespace Session

variable {σ : Type} {now : Time} {config : Config}

/-! ## One round -/

/-- The step that a session makes next. -/
def nextStep (now : Time) (config : Config) (session : Session) : State × Option Request :=
  step now config session.scaler session.response session.state

theorem nextStep_move (session : Session) :
    Move now config session.scaler session.state session.response
      (session.nextStep now config).2 (session.nextStep now config).1 :=
  step_move now config session.scaler session.response session.state

theorem advance_of_none (store : Store σ) {session : Session} (world : σ)
    (h : (session.nextStep now config).2 = none) :
    session.advance now config store world =
      ({ session with state := (session.nextStep now config).1, response := none }, world) := by
  unfold advance
  split
  · next hstep =>
    unfold nextStep
    rw [hstep]
  · next hstep =>
    unfold nextStep at h
    rw [hstep] at h
    cases h

theorem advance_of_some (store : Store σ) {session : Session} (world : σ) {request : Request}
    (h : (session.nextStep now config).2 = some request) :
    session.advance now config store world =
      ({ session with
          state := (session.nextStep now config).1
          response := some (store.send request world).1 }, (store.send request world).2) := by
  unfold advance
  split
  · next hstep =>
    unfold nextStep at h
    rw [hstep] at h
    cases h
  · next hstep =>
    unfold nextStep at h ⊢
    rw [hstep] at h ⊢
    cases h
    rfl

/-- A session that has ended makes no request, and its state stays. -/
theorem advance_of_isFinal (store : Store σ) {session : Session} (world : σ)
    (hfinal : session.state.stage.isFinal = true) :
    session.advance now config store world = ({ session with response := none }, world) := by
  obtain ⟨hrequest, hstate⟩ := session.nextStep_move.rest_of_isFinal hfinal
  rw [advance_of_none store world hrequest, hstate]

/-! ## Runs -/

theorem run_of_isFinal (store : Store σ) {session : Session} (world : σ)
    (hfinal : session.state.stage.isFinal = true) :
    session.run now config store world = (session.state.verdict, world) := by
  unfold run State.verdict
  rw [if_pos hfinal]
  cases session.state.error? with
  | none => rfl
  | some error => rfl

/-- One round leads to the same end. -/
theorem run_advance (now : Time) (config : Config) (store : Store σ) (session : Session)
    (world : σ) :
    (session.advance now config store world).1.run now config store
        (session.advance now config store world).2 =
      session.run now config store world := by
  by_cases hfinal : session.state.stage.isFinal = true
  · rw [advance_of_isFinal store world hfinal, run_of_isFinal store world hfinal]
    exact run_of_isFinal store world hfinal
  · rw [run.eq_def now config store session world, if_neg hfinal]

/-- A session and the world after some rounds. -/
def rounds (now : Time) (config : Config) (store : Store σ) : Nat → Session → σ → Session × σ
  | 0, session, world => (session, world)
  | k + 1, session, world =>
      let next := session.advance now config store world
      rounds now config store k next.1 next.2

/-- In a session that has ended the state stays. -/
theorem rounds_of_isFinal (store : Store σ) (k : Nat) {session : Session} (world : σ)
    (hfinal : session.state.stage.isFinal = true) :
    (rounds now config store k session world).1.state = session.state := by
  induction k generalizing session with
  | zero => rfl
  | succ k ih =>
      rw [rounds, advance_of_isFinal store world hfinal]
      exact ih hfinal

/-- Rounds lead to the same end. -/
theorem run_rounds (now : Time) (config : Config) (store : Store σ) (k : Nat) (session : Session)
    (world : σ) :
    (rounds now config store k session world).1.run now config store
        (rounds now config store k session world).2 =
      session.run now config store world := by
  induction k generalizing session world with
  | zero => rfl
  | succ k ih => exact (ih _ _).trans (run_advance now config store session world)

/-- Every session comes to its end after some rounds. -/
theorem exists_rounds_isFinal (now : Time) (config : Config) (store : Store σ) (session : Session)
    (world : σ) :
    ∃ k, (rounds now config store k session world).1.state.stage.isFinal = true ∧
      ∀ j < k, (rounds now config store j session world).1.state.stage.isFinal = false := by
  fun_induction Session.run now config store session world with
  | case1 session world hfinal => exact ⟨0, hfinal, fun j hj => absurd hj (Nat.not_lt_zero j)⟩
  | case2 session world hfinal => exact ⟨0, hfinal, fun j hj => absurd hj (Nat.not_lt_zero j)⟩
  | case3 session world hfinal next ih =>
      obtain ⟨k, hk, hbefore⟩ := ih
      refine ⟨k + 1, hk, fun j hj => ?_⟩
      cases j with
      | zero => exact Bool.eq_false_iff.2 hfinal
      | succ j => exact hbefore j (Nat.lt_of_succ_lt_succ hj)

end Session

/-! ## Reconciles -/

section Reconciles

variable {σ : Type} (now : Time) (config : Config) (store : Store σ) {key : Key} {world : σ}

/-- A reconcile that cannot read its scaler makes no other call. -/
theorem reconcile_of_error {error : ApiError} (h : (store.getScaler key world).1 = .error error) :
    reconcile now config store key world =
      (if error.isNotFound then .ok .done else .error (.getScalerFailed error),
        (store.getScaler key world).2) := by
  unfold reconcile
  split
  · next hread =>
    rw [hread] at h ⊢
    cases h
    split <;> rfl
  · next hread =>
    rw [hread] at h
    cases h

/-- A reconcile that can read its scaler runs its session. -/
theorem reconcile_of_ok {scaler : Scaler} (h : (store.getScaler key world).1 = .ok scaler) :
    reconcile now config store key world =
      let ended := ({ scaler } : Session).run now config store (store.getScaler key world).2
      (ended.1.mapError .stepFailed, ended.2) := by
  unfold reconcile
  split
  · next hread =>
    rw [hread] at h
    cases h
  · next hread =>
    rw [hread] at h ⊢
    cases h
    rfl

end Reconciles

end ReplicaKeeper.Reconcile
