import ReplicaKeeper.Proofs.Reconcile.Rounds

/-!
# Recorded stores

A recorded store answers like the store that it is made from, and keeps a list of the calls with
their answers.  The record changes nothing for a reconcile, `reconcile_recording`; so the calls of a
reconcile on a store are those that the recorded store keeps.
-/

set_option autoImplicit false

namespace ReplicaKeeper

/-- A call of a store, with its answer. -/
inductive StoreCall where
  | gotScaler (key : Key) (answer : Except ApiError Scaler)
  | sent (request : Request) (response : Response)

variable {σ : Type}

/-- The store that also keeps its calls, the oldest first. -/
def Store.recording (store : Store σ) : Store (σ × List StoreCall) where
  getScaler key world :=
    let (answer, next) := store.getScaler key world.1
    (answer, next, world.2 ++ [.gotScaler key answer])
  getWorkload key world :=
    let (answer, next) := store.getWorkload key world.1
    (answer, next, world.2 ++ [.sent (.getWorkload key) (.workload answer)])
  getDeployment key world :=
    let (answer, next) := store.getDeployment key world.1
    (answer, next, world.2 ++ [.sent (.getDeployment key) (.deployment answer)])
  patchDeployment key patch world :=
    let (answer, next) := store.patchDeployment key patch world.1
    (answer, next, world.2 ++ [.sent (.patchDeployment key patch) (.patched answer)])
  updateStatus scaler world :=
    let (answer, next) := store.updateStatus scaler world.1
    (answer, next, world.2 ++ [.sent (.updateStatus scaler) (.statusUpdated answer)])

namespace Store

variable (store : Store σ) (world : σ) (calls : List StoreCall)

theorem getWorkload_recording (key : Key) :
    store.recording.getWorkload key (world, calls) =
      ((store.getWorkload key world).1, (store.getWorkload key world).2,
        calls ++ [.sent (.getWorkload key) (.workload (store.getWorkload key world).1)]) := rfl

theorem getDeployment_recording (key : Key) :
    store.recording.getDeployment key (world, calls) =
      ((store.getDeployment key world).1, (store.getDeployment key world).2,
        calls ++ [.sent (.getDeployment key) (.deployment (store.getDeployment key world).1)]) :=
  rfl

theorem patchDeployment_recording (key : Key) (patch : Json) :
    store.recording.patchDeployment key patch (world, calls) =
      ((store.patchDeployment key patch world).1, (store.patchDeployment key patch world).2,
        calls ++ [.sent (.patchDeployment key patch)
          (.patched (store.patchDeployment key patch world).1)]) := rfl

theorem updateStatus_recording (scaler : Scaler) :
    store.recording.updateStatus scaler (world, calls) =
      ((store.updateStatus scaler world).1, (store.updateStatus scaler world).2,
        calls ++ [.sent (.updateStatus scaler)
          (.statusUpdated (store.updateStatus scaler world).1)]) := rfl

/-- A request to a recorded store adds one call to the record. -/
theorem send_recording (request : Request) :
    store.recording.send request (world, calls) =
      ((store.send request world).1, (store.send request world).2,
        calls ++ [.sent request (store.send request world).1]) := by
  cases request <;> rfl

end Store

namespace Reconcile

variable (now : Time) (config : Config) (store : Store σ)

/-! ## Sessions -/

namespace Session

/-- A round on a recorded store is the same round, and some calls are recorded. -/
theorem advance_recording (session : Session) (world : σ) :
    ∃ more, ∀ calls, session.advance now config store.recording (world, calls) =
      ((session.advance now config store world).1, (session.advance now config store world).2,
        calls ++ more) := by
  cases hrequest : (session.nextStep now config).2 with
  | none =>
      refine ⟨[], fun calls => ?_⟩
      rw [advance_of_none _ _ hrequest, advance_of_none _ _ hrequest, List.append_nil]
  | some request =>
      refine ⟨[.sent request (store.send request world).1], fun calls => ?_⟩
      rw [advance_of_some _ _ hrequest, advance_of_some _ _ hrequest, store.send_recording]

/-- Rounds on a recorded store are the same rounds, and some calls are recorded. -/
theorem rounds_recording (k : Nat) (session : Session) (world : σ) :
    ∃ more, ∀ calls, rounds now config store.recording k session (world, calls) =
      ((rounds now config store k session world).1, (rounds now config store k session world).2,
        calls ++ more) := by
  induction k generalizing session world with
  | zero => exact ⟨[], fun calls => by rw [List.append_nil]; rfl⟩
  | succ k ih =>
      obtain ⟨first, hfirst⟩ := advance_recording now config store session world
      obtain ⟨more, hmore⟩ := ih (session.advance now config store world).1
        (session.advance now config store world).2
      refine ⟨first ++ more, fun calls => ?_⟩
      rw [rounds, hfirst, hmore, List.append_assoc]
      rfl

/-- What is recorded in a run does not depend on what was recorded before. -/
theorem run_recording_append (session : Session) (world : σ) :
    ∃ more, ∀ calls, session.run now config store.recording (world, calls) =
      ((session.run now config store world).1, (session.run now config store world).2,
        calls ++ more) := by
  fun_induction Session.run now config store session world with
  | case1 session world hfinal hnone =>
      refine ⟨[], fun calls => ?_⟩
      rw [run_of_isFinal _ _ hfinal, State.verdict, hnone, List.append_nil]
  | case2 session world hfinal error herror =>
      refine ⟨[], fun calls => ?_⟩
      rw [run_of_isFinal _ _ hfinal, State.verdict, herror, List.append_nil]
  | case3 session world hfinal next ih =>
      obtain ⟨first, hfirst⟩ := advance_recording now config store session world
      obtain ⟨more, hmore⟩ := ih
      refine ⟨first ++ more, fun calls => ?_⟩
      rw [← run_advance, hfirst, hmore, run_advance, List.append_assoc]

/-- The calls of a session until it has ended. -/
def calls (session : Session) (world : σ) : List StoreCall :=
  (session.run now config store.recording (world, [])).2.2

/-- A run on a recorded store is the same run, and its calls are recorded. -/
theorem run_recording (session : Session) (world : σ) (before : List StoreCall) :
    session.run now config store.recording (world, before) =
      ((session.run now config store world).1, (session.run now config store world).2,
        before ++ session.calls now config store world) := by
  obtain ⟨more, hmore⟩ := run_recording_append now config store session world
  rw [hmore, calls, hmore, List.nil_append]

end Session

/-! ## Reconciles -/

/-- The calls of a reconcile, from the one that reads the scaler to its end. -/
def calls (key : Key) (world : σ) : List StoreCall :=
  (reconcile now config store.recording key (world, [])).2.2

section Reconciles

variable {key : Key} {world : σ}

theorem reconcile_recording_of_error {error : ApiError}
    (h : (store.getScaler key world).1 = .error error) :
    reconcile now config store.recording key (world, []) =
      ((reconcile now config store key world).1, (reconcile now config store key world).2,
        [.gotScaler key (.error error)]) := by
  have hrecorded : (store.recording.getScaler key (world, [])).1 = .error error := h
  rw [reconcile_of_error now config _ hrecorded, reconcile_of_error now config _ h, ← h]
  rfl

theorem reconcile_recording_of_ok {scaler : Scaler}
    (h : (store.getScaler key world).1 = .ok scaler) :
    reconcile now config store.recording key (world, []) =
      ((reconcile now config store key world).1, (reconcile now config store key world).2,
        .gotScaler key (.ok scaler) ::
          ({ scaler } : Session).calls now config store (store.getScaler key world).2) := by
  have hrecorded : (store.recording.getScaler key (world, [])).1 = .ok scaler := h
  have hworld : (store.recording.getScaler key (world, [])).2 =
      ((store.getScaler key world).2, [.gotScaler key (.ok scaler)]) := by
    rw [← h]
    rfl
  rw [reconcile_of_ok now config _ hrecorded, reconcile_of_ok now config _ h, hworld]
  simp only [Session.run_recording, List.singleton_append]

/-- A scaler that cannot be read leaves one call. -/
theorem calls_of_error {error : ApiError} (h : (store.getScaler key world).1 = .error error) :
    calls now config store key world = [.gotScaler key (.error error)] := by
  rw [calls, reconcile_recording_of_error now config store h]

/-- After the scaler was read the calls are those of its session. -/
theorem calls_of_ok {scaler : Scaler} (h : (store.getScaler key world).1 = .ok scaler) :
    calls now config store key world =
      .gotScaler key (.ok scaler) ::
        ({ scaler } : Session).calls now config store (store.getScaler key world).2 := by
  rw [calls, reconcile_recording_of_ok now config store h]

variable (key world) in
/-- A reconcile ends in the same way, and leaves the same world, when its calls are recorded. -/
theorem reconcile_recording :
    reconcile now config store.recording key (world, []) =
      ((reconcile now config store key world).1, (reconcile now config store key world).2,
        calls now config store key world) := by
  cases h : (store.getScaler key world).1 with
  | error error =>
      rw [calls_of_error now config store h, reconcile_recording_of_error now config store h]
  | ok scaler => rw [calls_of_ok now config store h, reconcile_recording_of_ok now config store h]

end Reconciles

end Reconcile

end ReplicaKeeper
