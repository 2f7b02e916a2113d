import ReplicaKeeper.Reconcile.Run

/-!
# Reconciles that take turns

An attempt is one reconcile that a controller has begun.  It advances by one request at a time, so
that several attempts can take turns: `Attempt.runAll` lets each of them make one request in every
round, in the order in which they were begun.

Each turn brings an attempt closer to its end, `closer_advance`; so rounds come to an end as well.
-/

set_option autoImplicit false

namespace ReplicaKeeper.Reconcile

/-- A reconcile that was begun. -/
inductive Attempt where
  /-- The scaler has not been read yet. -/
  | unread (key : Key)
  | underWay (session : Session)
  | ended (result : Except ReconcileError Action)

namespace Attempt

variable {σ : Type}

/-- Begins to reconcile a scaler that a watch has shown: only its key counts. -/
def start (scaler : Scaler) : Attempt :=
  match scaler.metadata.name, scaler.metadata.ns with
  | none, _ => .ended (.error .missingName)
  | _, none => .ended (.error .missingNamespace)
  | some name, some ns => .unread ⟨ns, name⟩

/-- The attempt with a session, which may have come to its end. -/
def ofSession (session : Session) : Attempt :=
  if session.state.stage.isFinal then
    match session.state.error? with
    | none => .ended (.ok session.state.outcome.action)
    | some error => .ended (.error (.stepFailed error))
  else .underWay session

/-- Makes what comes before the next request, and that request. -/
def advance (now : Time) (config : Config) (store : Store σ) (attempt : Attempt) (world : σ) :
    Attempt × σ :=
  match attempt with
  | .unread key =>
      match store.getScaler key world with
      | (.error error, world) =>
          if error.isNotFound then (.ended (.ok .awaitChange), world)
          else (.ended (.error (.getScalerFailed error)), world)
      | (.ok scaler, world) => (.underWay { scaler }, world)
  | .underWay session =>
      let (session, world) := session.advance now config store world
      (ofSession session, world)
  | .ended result => (.ended result, world)

/-! ## How much is left -/

/-- How many stages are ahead at most. -/
def rank : Attempt → Nat
  | .unread _ => 7
  | .underWay session => session.state.stage.rank + 1
  | .ended _ => 0

/-- How many candidates are left. -/
def candidatesLeft : Attempt → Nat
  | .underWay session => session.state.candidatesLeft
  | _ => 0

/-- Whether an attempt is closer to its end than another one. -/
def Closer (later earlier : Attempt) : Prop :=
  Prod.Lex (· < ·) (· < ·) (later.rank, later.candidatesLeft) (earlier.rank, earlier.candidatesLeft)

theorem closer_ended {result : Except ReconcileError Action} {attempt : Attempt}
    (h : 0 < attempt.rank) : (Attempt.ended result).Closer attempt :=
  Prod.Lex.left _ _ h

/-- A session at its end gives an attempt at its end. -/
theorem rank_ofSession {session : Session} (h : session.state.stage.isFinal = true) :
    (ofSession session).rank = 0 := by
  unfold ofSession
  rw [if_pos h]
  split <;> rfl

theorem closer_ofSession {later earlier : Session} (h : later.state.Closer earlier.state) :
    (ofSession later).Closer (.underWay earlier) := by
  unfold ofSession
  split
  · split <;> exact closer_ended (Nat.succ_pos _)
  · rcases Prod.lex_def.1 h with hrank | ⟨hrank, hleft⟩
    · exact Prod.Lex.left _ _ (Nat.succ_lt_succ hrank)
    · unfold Closer
      rw [show (underWay later).rank = (underWay earlier).rank from congrArg (· + 1) hrank]
      exact Prod.Lex.right _ hleft

theorem closer_advance (now : Time) (config : Config) (store : Store σ) (attempt : Attempt)
    (world : σ) (h : 0 < attempt.rank) :
    (attempt.advance now config store world).1.Closer attempt := by
  unfold advance
  split
  · split
    · split <;> exact closer_ended h
    · exact Prod.Lex.left _ _ (by simp [rank, Stage.rank])
  · next session =>
    by_cases hfinal : session.state.stage.isFinal = true
    · have hstate : (session.advance now config store world).1.state = session.state := by
        rw [Session.state_advance, step_of_isFinal now config _ _ _ hfinal]
      exact Prod.Lex.left _ _ (by
        rw [rank_ofSession (by rw [hstate]; exact hfinal)]
        exact h)
    · exact closer_ofSession (by
        rw [Session.state_advance]
        exact remaining_step now config _ _ _ (Bool.eq_false_iff.2 hfinal))
  · simp [rank] at h

/-! ## Rounds -/

/-- How an attempt ended, if it has. -/
def result? : Attempt → Option (Except ReconcileError Action)
  | .ended result => some result
  | _ => none

variable {κ : Type}

/-- Lets every attempt make a turn. -/
def round (now : Time) (config : Config) (store : Store σ) :
    List (κ × Attempt) → σ → List (κ × Attempt) × σ
  | [], world => ([], world)
  | (key, attempt) :: others, world =>
      let (attempt, world) := attempt.advance now config store world
      let (others, world) := round now config store others world
      ((key, attempt) :: others, world)

/-- The attempts that have not ended. -/
def goingOn (attempts : List (κ × Attempt)) : List (κ × Attempt) :=
  attempts.filter fun entry => 0 < entry.2.rank

/-- How much is left of a list of attempts: their number, and what is left of the first one. -/
def size : List (κ × Attempt) → Nat × Nat × Nat
  | [] => (0, 0, 0)
  | (key, first) :: others =>
      (((key, first) :: others).length, first.rank, first.candidatesLeft)

theorem length_round (now : Time) (config : Config) (store : Store σ)
    (attempts : List (κ × Attempt)) (world : σ) :
    (round now config store attempts world).1.length = attempts.length := by
  induction attempts generalizing world with
  | nil => rfl
  | cons entry others ih => simp [round, ih]

/-- A round ends an attempt, or it brings the first one closer to its end. -/
theorem size_round (now : Time) (config : Config) (store : Store σ)
    (attempts : List (κ × Attempt)) (world : σ) (h : goingOn attempts ≠ []) :
    Prod.Lex (· < ·) (Prod.Lex (· < ·) (· < ·))
      (size (goingOn (round now config store (goingOn attempts) world).1))
      (size (goingOn attempts)) := by
  have hall : ∀ entry ∈ goingOn attempts, 0 < entry.2.rank := fun entry hentry => by
    simpa using (List.mem_filter.1 hentry).2
  generalize goingOn attempts = going at h hall ⊢
  match going, h, hall with
  | (key, first) :: others, _, hall =>
    have hfirst := closer_advance now config store first world (hall _ (List.mem_cons_self ..))
    have hlength := length_round now config store others
      (first.advance now config store world).2
    have hle : (goingOn (round now config store others
        (first.advance now config store world).2).1).length ≤ others.length :=
      hlength ▸ List.length_filter_le ..
    simp only [round]
    generalize (round now config store others (first.advance now config store world).2).1 = next
      at hle
    generalize (first.advance now config store world).1 = later at hfirst
    by_cases hgoing : 0 < later.rank
    · have hcons : goingOn ((key, later) :: next) = (key, later) :: goingOn next := by
        simp [goingOn, hgoing]
      rw [hcons]
      rcases Nat.lt_or_eq_of_le hle with hlt | heq
      · exact Prod.Lex.left _ _ (Nat.succ_lt_succ hlt)
      · simp only [size, List.length_cons, heq]
        exact Prod.Lex.right _ hfirst
    · have hcons : goingOn ((key, later) :: next) = goingOn next := by
        simp [goingOn, hgoing]
      rw [hcons]
      have hsize : (size (goingOn next)).1 = (goingOn next).length := by
        cases goingOn next with
        | nil => rfl
        | cons entry rest => rfl
      exact Prod.lex_def.2 (.inl (hsize ▸ Nat.lt_succ_of_le hle))

/-- Runs attempts to their ends, in rounds.  The results are in the order of the ends. -/
def runAll (now : Time) (config : Config) (store : Store σ) (attempts : List (κ × Attempt))
    (world : σ) : List (κ × Except ReconcileError Action) × σ :=
  let ended := attempts.filterMap fun entry => entry.2.result?.map fun result => (entry.1, result)
  if goingOn attempts = [] then (ended, world)
  else
    let next := round now config store (goingOn attempts) world
    let later := runAll now config store next.1 next.2
    (ended ++ later.1, later.2)
  termination_by size (goingOn attempts)
  decreasing_by exact size_round now config store attempts world ‹_›

end Attempt

end ReplicaKeeper.Reconcile
